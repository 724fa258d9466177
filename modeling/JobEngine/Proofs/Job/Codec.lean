import JobEngine.Proofs.Job.Layout

namespace JobEngine

namespace Json

theorem reread_int (n : Wide) : (num (.int n)).reread = num (.int n) := by
  rw [reread, Number.reread_int]

theorem reread_ofUInt64 (n : UInt64) : (ofUInt64 n).reread = ofUInt64 n := reread_int _

theorem reread_ofUInt32 (n : UInt32) : (ofUInt32 n).reread = ofUInt32 n := reread_int _

theorem reread_ofInt32 (n : Int32) : (ofInt32 n).reread = ofInt32 n := reread_int _

theorem rereadMembers_append (m l : Members) :
    rereadMembers (m ++ l) = rereadMembers m ++ rereadMembers l := by
  simp only [rereadMembers_eq_map, List.map_append]

theorem rereadMembers_ofOption {α : Type} (k : String) (write : α → Json) (o : Option α) :
    rereadMembers (.ofOption k write o) = .ofOption k (fun a ↦ (write a).reread) o := by
  cases o <;> rfl

end Json

open Json

theorem reread_stringList (xs : List String) : (stringList xs).reread = stringList xs := by
  rw [stringList, reread, rereadItems_eq_map, List.map_map]
  rfl

theorem IndexUpdateArgs.reread_toJson (a : IndexUpdateArgs) : a.toJson.reread = a.toJson := by
  simp only [toJson, reread, rereadMembers, reread_ofUInt32]

theorem IndexUpdateResult.reread_toJson (r : IndexUpdateResult) : r.toJson.reread = r.toJson := by
  simp only [toJson, reread, rereadMembers, reread_stringList]

theorem NgramsResult.reread_toJson (r : NgramsResult) : r.toJson.reread = r.toJson := by
  simp only [toJson, reread, rereadMembers, rereadMembers_append, rereadMembers_ofOption,
    reread_ofUInt64]

theorem KeywordsArgs.reread_toJson (a : KeywordsArgs) : a.toJson.reread = a.toJson := by
  simp only [toJson, reread, rereadMembers, reread_stringList, reread_ofUInt64]

theorem KeywordsResult.reread_toJson (r : KeywordsResult) : r.toJson.reread = r.toJson := by
  simp only [toJson, reread, rereadMembers, rereadMembers_append, rereadMembers_ofOption,
    reread_ofUInt64]

theorem Directory.reread_toJson (d : Directory) : d.toJson.reread = d.toJson := by
  simp only [toJson, reread, rereadMembers, rereadMembers_ofOption]

theorem SyncResult.reread_toJson (r : SyncResult) : r.toJson.reread = r.toJson := by
  simp only [toJson, reread, rereadMembers, reread_ofInt32, reread_stringList,
    Directory.reread_toJson]

theorem DummyArgs.reread_toJson (a : DummyArgs) : a.toJson.reread = a.toJson := by
  simp only [toJson, reread, rereadMembers, reread_ofUInt64]

theorem DummyResult.reread_toJson (r : DummyResult) : r.toJson.reread = r.toJson := by
  simp only [toJson, reread, rereadMembers]

def OpaqueJson.reread (c : OpaqueJson) : OpaqueJson :=
  ⟨c.val.reread, Json.reread_isCanonical c.val c.property⟩

/-- Arguments as they are read: a null among the optional ones counts as nothing. -/
def LiveAttributesArgs.reread (a : LiveAttributesArgs) : LiveAttributesArgs :=
  { a with extractorConf := (a.extractorConf.filter (·.val ≠ .null)).map .reread }

def Work.reread : Work → Work
  | liveAttributes aliased atoms lines args => liveAttributes aliased atoms lines args.reread
  | w => w

/-- A job as it is read. -/
def Job.reread (j : Job) : Job := { j with work := j.work.reread }

theorem LiveAttributesArgs.exists_written (a : LiveAttributesArgs) :
    ∃ b : LiveAttributesArgs, a.toJson.reread = b.toJson ∧ b.settle = a.reread := by
  refine ⟨{ a with extractorConf := a.extractorConf.map .reread }, ?_, ?_⟩
  · simp only [toJson, Json.reread, rereadMembers, rereadMembers_append, rereadMembers_ofOption]
    cases a.extractorConf <;> rfl
  · have hn (v : Json) : v.reread = .null ↔ v = .null := by cases v <;> simp [Json.reread]
    have hc (c : OpaqueJson) : c.reread.val = .null ↔ c.val = .null := hn c.val
    obtain ⟨_, _, _, _, conf⟩ := a
    cases conf with
    | none => rfl
    | some c =>
      rw [settle, reread, Option.map_some, Option.filter_some, Option.filter_some]
      by_cases h : c.val = .null
      · simp [h, (hc c).2 h]
      · simp [h, (hc c).not.2 h]

theorem Work.exists_written (w : Work) : ∃ u : Work, u.kind = w.kind ∧
    rereadMembers w.toMembers = u.toMembers ∧ u.settle = w.reread := by
  cases w with
  | liveAttributes aliased atoms lines args =>
    obtain ⟨b, hb, hs⟩ := args.exists_written
    refine ⟨liveAttributes aliased atoms lines b, rfl, ?_, ?_⟩
    · simp only [toMembers, rereadMembers, rereadMembers_append, rereadMembers_ofOption,
        reread_ofUInt64, hb, Json.reread]
    · rw [settle, reread, hs]
  | indexUpdate args result =>
    refine ⟨_, rfl, ?_, rfl⟩
    simp only [toMembers, rereadMembers, rereadMembers_ofOption, IndexUpdateArgs.reread_toJson,
      IndexUpdateResult.reread_toJson]
  | ngrams result =>
    refine ⟨_, rfl, ?_, rfl⟩
    simp only [toMembers, rereadMembers_ofOption, NgramsResult.reread_toJson]
  | keywords args result =>
    refine ⟨_, rfl, ?_, rfl⟩
    simp only [toMembers, rereadMembers, rereadMembers_ofOption, KeywordsArgs.reread_toJson,
      KeywordsResult.reread_toJson]
  | corpusSync result =>
    refine ⟨_, rfl, ?_, rfl⟩
    simp only [toMembers, rereadMembers_ofOption, SyncResult.reread_toJson]
  | dummy args result =>
    refine ⟨_, rfl, ?_, rfl⟩
    simp only [toMembers, rereadMembers, rereadMembers_ofOption, DummyArgs.reread_toJson,
      DummyResult.reread_toJson]

theorem Job.ofJson?_toJson (j : Job) : ofJson? j.toJson.reread = some j.reread := by
  obtain ⟨u, hk, hm, hs⟩ := j.work.exists_written
  have hw : j.toJson.reread = ({ j with work := u } : Job).toJson := by
    simp only [toJson, toMembers, kind, hk, ← hm, Json.reread, rereadMembers, rereadMembers_append,
      rereadMembers_ofOption, reread_ofUInt32, JobKind.toJson]
  rw [hw, ofJson?_drift .refl, settle, hs]
  rfl

end JobEngine
