import JobEngine.Job.Codec
import JobEngine.Proofs.Json.Reading

namespace JobEngine

variable {n : ℕ}

namespace Json

variable {m l : Members} {xs : List Json}

theorem depthItems_le : depthItems xs ≤ n ↔ ∀ x ∈ xs, x.depth ≤ n := by
  induction xs with
  | nil => simp [depthItems]
  | cons x xs ih => rw [depthItems, max_le_iff, ih, List.forall_mem_cons]

theorem depthMembers_append : depthMembers (m ++ l) = max (depthMembers m) (depthMembers l) := by
  induction m with
  | nil => rw [List.nil_append, depthMembers, Nat.zero_max]
  | cons x m ih => rw [List.cons_append, depthMembers, depthMembers, ih, max_assoc]

theorem depthMembers_ofOption_le {α : Type} {k : String} {write : α → Json} {o : Option α} :
    depthMembers (.ofOption k write o) ≤ n ↔ ∀ a ∈ o, (write a).depth ≤ n := by
  cases o <;> simp [Members.ofOption, depthMembers]

theorem depth_arr_le : (arr xs).depth ≤ n + 1 ↔ ∀ x ∈ xs, x.depth ≤ n := by
  rw [depth, Nat.add_le_add_iff_right, depthItems_le]

theorem depth_obj_le : (obj m).depth ≤ n + 1 ↔ depthMembers m ≤ n := by
  rw [depth, Nat.add_le_add_iff_right]

@[simp]
theorem depth_bool (b : Bool) : (bool b).depth = 0 := rfl

@[simp]
theorem depth_str (s : String) : (str s).depth = 0 := rfl

@[simp]
theorem depth_ofUInt64 (n : UInt64) : (ofUInt64 n).depth = 0 := rfl

@[simp]
theorem depth_ofUInt32 (n : UInt32) : (ofUInt32 n).depth = 0 := rfl

@[simp]
theorem depth_ofInt32 (n : Int32) : (ofInt32 n).depth = 0 := rfl

end Json

open Json

theorem depth_stringList (xs : List String) : (stringList xs).depth ≤ 1 := by
  simp [stringList, depth_arr_le]

theorem IndexUpdateArgs.depth_toJson (a : IndexUpdateArgs) : a.toJson.depth ≤ 2 := by
  simp [toJson, depth_obj_le, depthMembers]

theorem IndexUpdateResult.depth_toJson (r : IndexUpdateResult) : r.toJson.depth ≤ 2 := by
  simp [toJson, depth_obj_le, depthMembers, depth_stringList]

theorem NgramsResult.depth_toJson (r : NgramsResult) : r.toJson.depth ≤ 2 := by
  simp [toJson, depth_obj_le, depthMembers, depthMembers_ofOption_le]

theorem KeywordsArgs.depth_toJson (a : KeywordsArgs) : a.toJson.depth ≤ 2 := by
  simp [toJson, depth_obj_le, depthMembers, depth_stringList]

theorem KeywordsResult.depth_toJson (r : KeywordsResult) : r.toJson.depth ≤ 2 := by
  simp [toJson, depth_obj_le, depthMembers, depthMembers_ofOption_le]

theorem Directory.depth_toJson (d : Directory) : d.toJson.depth ≤ 1 := by
  rw [toJson, depth_obj_le, depthMembers, max_le_iff]
  exact ⟨le_rfl, depthMembers_ofOption_le.2 fun _ _ ↦ le_rfl⟩

theorem SyncResult.depth_toJson (r : SyncResult) : r.toJson.depth ≤ 2 := by
  simp [toJson, depth_obj_le, depthMembers, depth_stringList, Directory.depth_toJson]

theorem DummyArgs.depth_toJson (a : DummyArgs) : a.toJson.depth ≤ 2 := by
  simp [toJson, depth_obj_le, depthMembers]

theorem DummyResult.depth_toJson (r : DummyResult) : r.toJson.depth ≤ 2 := by
  simp [toJson, depth_obj_le, depthMembers]

theorem LiveAttributesArgs.depth_toJson {a : LiveAttributesArgs} :
    a.toJson.depth ≤ n + 1 ↔ ∀ c ∈ a.extractorConf, c.val.depth ≤ n := by
  rw [toJson, depth_obj_le, depthMembers_append, max_le_iff]
  refine (and_iff_right ?_).trans depthMembers_ofOption_le
  simp [depthMembers, depthMembers_append, depthMembers_ofOption_le]

namespace Work

/-- The settings of the extractor, for the kind of job that has them. -/
def conf? : Work → Option OpaqueJson
  | liveAttributes _ _ _ args => args.extractorConf
  | indexUpdate .. | ngrams .. | keywords .. | corpusSync .. | dummy .. => none

theorem depth_toMembers {w : Work} :
    depthMembers w.toMembers ≤ n + 2 ↔ ∀ c ∈ w.conf?, c.val.depth ≤ n + 1 := by
  have hn : 2 ≤ n + 2 := Nat.le_add_left 2 n
  cases w with
  | liveAttributes aliased atoms lines args =>
    rw [conf?, ← LiveAttributesArgs.depth_toJson]
    simp [toMembers, depthMembers, depthMembers_append, depthMembers_ofOption_le]
  | indexUpdate args result =>
    refine iff_of_true (le_trans ?_ hn) (by simp [conf?])
    simp [toMembers, depthMembers, depthMembers_ofOption_le, IndexUpdateArgs.depth_toJson,
      IndexUpdateResult.depth_toJson]
  | ngrams result =>
    refine iff_of_true (le_trans ?_ hn) (by simp [conf?])
    simp [toMembers, depthMembers_ofOption_le, NgramsResult.depth_toJson]
  | keywords args result =>
    refine iff_of_true (le_trans ?_ hn) (by simp [conf?])
    simp [toMembers, depthMembers, depthMembers_ofOption_le, KeywordsArgs.depth_toJson,
      KeywordsResult.depth_toJson]
  | corpusSync result =>
    refine iff_of_true (le_trans ?_ hn) (by simp [conf?])
    simp [toMembers, depthMembers_ofOption_le, SyncResult.depth_toJson]
  | dummy args result =>
    refine iff_of_true (le_trans ?_ hn) (by simp [conf?])
    simp [toMembers, depthMembers, depthMembers_ofOption_le, DummyArgs.depth_toJson,
      DummyResult.depth_toJson]

end Work

theorem Job.depth_toJson {j : Job} :
    j.toJson.depth ≤ n + 3 ↔ ∀ c ∈ j.work.conf?, c.val.depth ≤ n + 1 := by
  rw [toJson, depth_obj_le, toMembers, depthMembers_append, max_le_iff, depthMembers, max_le_iff,
    Work.depth_toMembers]
  have h : depthMembers (Members.ofOption "error" str j.error) ≤ n + 2 :=
    depthMembers_ofOption_le.2 fun _ _ ↦ Nat.zero_le _
  simp [JobKind.toJson, depthMembers, h]

end JobEngine
