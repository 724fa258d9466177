import JobEngine.Job.Codec
import JobEngine.Proofs.Json.Drift
import JobEngine.Proofs.Time.Reading

namespace JobEngine

namespace Layout

def bool : Layout := .plain .bool

def uint32 : Layout := .plain (.integer 0 UInt32.size)

def uint64 : Layout := .plain (.integer 0 UInt64.size)

def int32 : Layout := .plain (.integer (-2147483648) 2147483648)

def string : Layout := .plain .string

def strings : Layout := .plain .strings

def instant : Layout := .plain .instant

def kind : Layout := .plain (.oneOf (JobKind.all.map JobKind.name))

def settings : Layout := .plain .anything

end Layout

open Layout Members

namespace Json

theorem asUInt64?_int (n : Wide) : (num (.int n)).asUInt64? =
    if 0 ≤ n.val ∧ n.val < UInt64.size then some (UInt64.ofNat n.val.toNat) else none := rfl

theorem asUInt32?_int (n : Wide) : (num (.int n)).asUInt32? =
    if 0 ≤ n.val ∧ n.val < UInt32.size then some (UInt32.ofNat n.val.toNat) else none := rfl

theorem asInt32?_int (n : Wide) : (num (.int n)).asInt32? =
    if -2147483648 ≤ n.val ∧ n.val < 2147483648 then some (Int32.ofInt n.val) else none := rfl

theorem reads_bool (b : Bool) : Reads Layout.bool asBool? (.bool b) b := .plain rfl

theorem reads_string (s : String) : Reads string asString? (.str s) s := .plain rfl

theorem reads_uint64 (n : UInt64) : Reads uint64 asUInt64? (ofUInt64 n) n := by
  have hv : (Wide.ofUInt64 n).val = n.toNat := rfl
  have hlt : (n.toNat : ℤ) < UInt64.size := by exact_mod_cast n.toNat_lt
  refine .plain ?_
  rw [ofUInt64, canonical, asUInt64?_int, hv, if_pos ⟨by omega, hlt⟩, Int.toNat_natCast,
    UInt64.ofNat_toNat]

theorem reads_uint32 (n : UInt32) : Reads uint32 asUInt32? (ofUInt32 n) n := by
  have hv : (Wide.ofUInt32 n).val = n.toNat := rfl
  have hlt : (n.toNat : ℤ) < UInt32.size := by exact_mod_cast n.toNat_lt
  refine .plain ?_
  rw [ofUInt32, canonical, asUInt32?_int, hv, if_pos ⟨by omega, hlt⟩, Int.toNat_natCast,
    UInt32.ofNat_toNat]

theorem reads_int32 (n : Int32) : Reads int32 asInt32? (ofInt32 n) n := by
  have hv : (Wide.ofInt32 n).val = n.toInt := rfl
  have hle := n.le_toInt
  have hlt := n.toInt_lt
  refine .plain ?_
  rw [ofInt32, canonical, asInt32?_int, hv, if_pos (by omega), Int32.ofInt_toInt]

theorem reads_instant (t : Instant) : Reads instant asInstant? (.str t.text) t := by
  refine .plain ?_
  rw [canonical, asInstant?, asString?, Option.bind_some, Instant.read?_text]

theorem reads_kind (k : JobKind) :
    Reads Layout.kind (fun v ↦ v.asString?.bind JobKind.ofName?) k.toJson k :=
  .plain (JobKind.ofName?_name k)

theorem rejects_integer {α : Type} {read : Json → Option α} {lower upper : ℤ} {of : ℤ → α}
    (h : ∀ v : Json, read v =
      v.asInt?.bind fun n ↦ if lower ≤ n ∧ n < upper then some (of n) else none) :
    Rejects (.plain (.integer lower upper)) read := by
  refine .plain fun v a ha ↦ ?_
  rw [h, Option.bind_eq_some_iff] at ha
  obtain ⟨n, hn, hi⟩ := ha
  cases v with
  | num x =>
    cases x with
    | int w =>
      obtain rfl : w.val = n := Option.some.inj hn
      by_cases hb : lower ≤ w.val ∧ w.val < upper
      · exact ⟨w, rfl, hb⟩
      · rw [if_neg hb] at hi
        cases hi
    | float => cases hn
  | _ => cases hn

theorem rejects_bool : Rejects Layout.bool asBool? := by
  refine .plain fun v a ha ↦ ?_
  cases v with
  | bool b => exact ⟨b, rfl⟩
  | _ => cases ha

theorem eq_str_of_asString? {v : Json} {s : String} (h : v.canonical.asString? = some s) :
    v = .str s := by
  cases v with
  | str t => exact congrArg str (Option.some.inj h)
  | _ => cases h

theorem rejects_string : Rejects string asString? :=
  .plain fun _ s h ↦ ⟨s, eq_str_of_asString? h⟩

theorem rejects_uint64 : Rejects uint64 asUInt64? := rejects_integer fun _ ↦ rfl

theorem rejects_uint32 : Rejects uint32 asUInt32? := rejects_integer fun _ ↦ rfl

theorem rejects_int32 : Rejects int32 asInt32? := rejects_integer fun _ ↦ rfl

theorem rejects_instant : Rejects instant asInstant? := by
  refine .plain fun v t ht ↦ ?_
  obtain ⟨s, hs, ht⟩ := Option.bind_eq_some_iff.1 ht
  exact ⟨s, t, eq_str_of_asString? hs, ht⟩

theorem rejects_kind : Rejects Layout.kind fun v ↦ v.asString?.bind JobKind.ofName? := by
  refine .plain fun v k hk ↦ ?_
  obtain ⟨s, hs, hk⟩ := Option.bind_eq_some_iff.1 hk
  have hn : k.name = s := by simpa using List.find?_some hk
  exact ⟨s, List.mem_map.2 ⟨k, List.mem_of_find?_eq_some hk, hn⟩, eq_str_of_asString? hs⟩

end Json

theorem reads_strings (xs : List String) : Reads strings stringList? (stringList xs) xs := by
  refine .plain ?_
  rw [stringList, Json.canonical, stringList?, Json.asList?]
  induction xs with
  | nil => rfl
  | cons x xs ih =>
    rw [List.map_cons, Json.canonicalItems, List.mapM_cons, ih]
    rfl

theorem rejects_strings : Rejects strings stringList? := by
  have hi : ∀ {items : List Json} {xs : List String},
      (Json.canonicalItems items).mapM Json.asString? = some xs → items = xs.map .str := by
    intro items
    induction items with
    | nil =>
      intro xs h
      rw [← Option.some.inj h]
      rfl
    | cons v items ih =>
      intro xs h
      rw [Json.canonicalItems, List.mapM_cons] at h
      obtain ⟨x, hx, h⟩ := Option.bind_eq_some_iff.1 h
      obtain ⟨ys, hy, h⟩ := Option.bind_eq_some_iff.1 h
      rw [← Option.some.inj h, ih hy, Json.eq_str_of_asString? hx]
      rfl
  refine .plain fun v xs h ↦ ?_
  cases v with
  | arr items => exact ⟨xs, congrArg Json.arr (hi h)⟩
  | _ => cases h

theorem OpaqueJson.ofJson_canonical (c : OpaqueJson) : ofJson c.val.canonical = c := by
  have h := Json.canonical_eq c.val c.property
  exact Subtype.ext ((congrArg Json.canonical h).trans h)

theorem OpaqueJson.reads (c : OpaqueJson) : Reads settings (some ∘ ofJson) c.val c :=
  .plain (congrArg some c.ofJson_canonical)

theorem OpaqueJson.rejects : Rejects settings (some ∘ ofJson) := .plain fun _ _ _ ↦ trivial

theorem Members.keys_ofOption {α : Type} (k : String) (write : α → Json) (o : Option α) :
    ((ofOption k write o).map (·.1)).Sublist [k] := by
  cases o <;> simp [ofOption]

@[simp]
theorem Members.values_settings (key k : String) (o : Option OpaqueJson) :
    values (ofOption key Subtype.val o) k =
      if key = k then (o.map fun c : OpaqueJson ↦ c.val).toList else [] :=
  values_ofOption key k Subtype.val o

namespace LiveAttributesArgs

/-- Arguments as they are read: settings that are null count as none. -/
def settle (a : LiveAttributesArgs) : LiveAttributesArgs :=
  { a with extractorConf := a.extractorConf.filter (·.val ≠ .null) }

def fields : List Field :=
  [("append", bool, .default (.bool false)), ("noCorpusDbUpdate", bool, .default (.bool false)),
    ("tagsetAttr", string, .optional), ("tagsetName", string, .optional),
    ("extractorConf", settings, .optional)]

theorem reads (a : LiveAttributesArgs) : Reads (.object fields) ofJson? a.toJson a.settle := by
  refine .object (by decide) ?_ ?_
  · cases a.tagsetAttr <;> cases a.tagsetName <;> cases a.extractorConf <;> simp [ofOption]
  refine .withDefault (by simp) (Json.reads_bool a.append) rfl ?_
  refine .withDefault (by simp) (Json.reads_bool a.noCorpusDbUpdate) rfl ?_
  refine .optional (o := a.tagsetAttr) (by simp) Json.reads_string (by simp) ?_
  refine .optional (o := a.tagsetName) (by simp) Json.reads_string (by simp) ?_
  refine .optional_filter (o := a.extractorConf) (by simp) OpaqueJson.reads ?_
  exact .done

theorem rejects : Rejects (.object fields) ofJson? := by
  refine .object ?_
  refine .withDefault Json.rejects_bool fun _ ↦ ?_
  refine .withDefault Json.rejects_bool fun _ ↦ ?_
  refine .optional Json.rejects_string fun _ ↦ ?_
  refine .optional Json.rejects_string fun _ ↦ ?_
  refine .optional OpaqueJson.rejects fun _ ↦ ?_
  exact .done

end LiveAttributesArgs

namespace IndexUpdateArgs

def fields : List Field := [("maxColumns", uint32, .default (.ofUInt32 0))]

theorem reads (a : IndexUpdateArgs) : Reads (.object fields) ofJson? a.toJson a := by
  refine .object (by decide) (by simp) ?_
  refine .withDefault (by simp) (Json.reads_uint32 a.maxColumns) rfl ?_
  exact .done

theorem rejects : Rejects (.object fields) ofJson? := by
  refine .object ?_
  refine .withDefault Json.rejects_uint32 fun _ ↦ ?_
  exact .done

end IndexUpdateArgs

namespace IndexUpdateResult

def fields : List Field :=
  [("usedIndexes", strings, .default (stringList [])),
    ("removedIndexes", strings, .default (stringList []))]

theorem reads (r : IndexUpdateResult) : Reads (.object fields) ofJson? r.toJson r := by
  refine .object (by decide) (by simp) ?_
  refine .withDefault (by simp) (reads_strings r.usedIndexes) rfl ?_
  refine .withDefault (by simp) (reads_strings r.removedIndexes) rfl ?_
  exact .done

theorem rejects : Rejects (.object fields) ofJson? := by
  refine .object ?_
  refine .withDefault rejects_strings fun _ ↦ ?_
  refine .withDefault rejects_strings fun _ ↦ ?_
  exact .done

end IndexUpdateResult

namespace NgramsResult

def fields : List Field :=
  [("tablesReady", bool, .default (.bool false)), ("totalLines", uint64, .default (.ofUInt64 0)),
    ("numProcLines", uint64, .default (.ofUInt64 0)), ("currAction", string, .default (.str "")),
    ("chunkId", uint64, .default (.ofUInt64 0)), ("clientWarn", string, .optional)]

theorem reads (r : NgramsResult) : Reads (.object fields) ofJson? r.toJson r := by
  refine .object (by decide) ?_ ?_
  · cases r.clientWarn <;> simp [ofOption]
  refine .withDefault (by simp) (Json.reads_bool r.tablesReady) rfl ?_
  refine .withDefault (by simp) (Json.reads_uint64 r.totalLines) rfl ?_
  refine .withDefault (by simp) (Json.reads_uint64 r.numProcLines) rfl ?_
  refine .withDefault (by simp) (Json.reads_string r.currAction) rfl ?_
  refine .withDefault (by simp) (Json.reads_uint64 r.chunkId) rfl ?_
  refine .optional (o := r.clientWarn) (by simp) Json.reads_string (by simp) ?_
  exact .done

theorem rejects : Rejects (.object fields) ofJson? := by
  refine .object ?_
  refine .withDefault Json.rejects_bool fun _ ↦ ?_
  refine .withDefault Json.rejects_uint64 fun _ ↦ ?_
  refine .withDefault Json.rejects_uint64 fun _ ↦ ?_
  refine .withDefault Json.rejects_string fun _ ↦ ?_
  refine .withDefault Json.rejects_uint64 fun _ ↦ ?_
  refine .optional Json.rejects_string fun _ ↦ ?_
  exact .done

end NgramsResult

namespace KeywordsArgs

def fields : List Field :=
  [("referenceVerticals", strings, .default (stringList [])),
    ("focusVerticals", strings, .default (stringList [])),
    ("wordColIdx", uint64, .default (.ofUInt64 0)), ("lemmaColIdx", uint64, .default (.ofUInt64 0)),
    ("tagColIdx", uint64, .default (.ofUInt64 0)), ("ngramSize", uint64, .default (.ofUInt64 0)),
    ("sentenceStruct", string, .default (.str ""))]

theorem reads (a : KeywordsArgs) : Reads (.object fields) ofJson? a.toJson a := by
  refine .object (by decide) (by simp) ?_
  refine .withDefault (by simp) (reads_strings a.referenceVerticals) rfl ?_
  refine .withDefault (by simp) (reads_strings a.focusVerticals) rfl ?_
  refine .withDefault (by simp) (Json.reads_uint64 a.wordColIdx) rfl ?_
  refine .withDefault (by simp) (Json.reads_uint64 a.lemmaColIdx) rfl ?_
  refine .withDefault (by simp) (Json.reads_uint64 a.tagColIdx) rfl ?_
  refine .withDefault (by simp) (Json.reads_uint64 a.ngramSize) rfl ?_
  refine .withDefault (by simp) (Json.reads_string a.sentenceStruct) rfl ?_
  exact .done

theorem rejects : Rejects (.object fields) ofJson? := by
  refine .object ?_
  refine .withDefault rejects_strings fun _ ↦ ?_
  refine .withDefault rejects_strings fun _ ↦ ?_
  refine .withDefault Json.rejects_uint64 fun _ ↦ ?_
  refine .withDefault Json.rejects_uint64 fun _ ↦ ?_
  refine .withDefault Json.rejects_uint64 fun _ ↦ ?_
  refine .withDefault Json.rejects_uint64 fun _ ↦ ?_
  refine .withDefault Json.rejects_string fun _ ↦ ?_
  exact .done

end KeywordsArgs

namespace KeywordsResult

def fields : List Field :=
  [("tablesReady", bool, .default (.bool false)), ("totalLines", uint64, .default (.ofUInt64 0)),
    ("numProcLines", uint64, .default (.ofUInt64 0)),
    ("numStopWords", uint64, .default (.ofUInt64 0)), ("clientWarn", string, .optional)]

theorem reads (r : KeywordsResult) : Reads (.object fields) ofJson? r.toJson r := by
  refine .object (by decide) ?_ ?_
  · cases r.clientWarn <;> simp [ofOption]
  refine .withDefault (by simp) (Json.reads_bool r.tablesReady) rfl ?_
  refine .withDefault (by simp) (Json.reads_uint64 r.totalLines) rfl ?_
  refine .withDefault (by simp) (Json.reads_uint64 r.numProcLines) rfl ?_
  refine .withDefault (by simp) (Json.reads_uint64 r.numStopWords) rfl ?_
  refine .optional (o := r.clientWarn) (by simp) Json.reads_string (by simp) ?_
  exact .done

theorem rejects : Rejects (.object fields) ofJson? := by
  refine .object ?_
  refine .withDefault Json.rejects_bool fun _ ↦ ?_
  refine .withDefault Json.rejects_uint64 fun _ ↦ ?_
  refine .withDefault Json.rejects_uint64 fun _ ↦ ?_
  refine .withDefault Json.rejects_uint64 fun _ ↦ ?_
  refine .optional Json.rejects_string fun _ ↦ ?_
  exact .done

end KeywordsResult

namespace Directory

def fields : List Field := [("path", string, .default (.str "")), ("latestMod", instant, .optional)]

theorem reads (d : Directory) : Reads (.object fields) ofJson? d.toJson d := by
  refine .object (by decide) ?_ ?_
  · cases d.latestMod <;> simp [ofOption]
  refine .withDefault (by simp) (Json.reads_string d.path) rfl ?_
  refine .optional (o := d.latestMod) (by simp) Json.reads_instant (by simp) ?_
  exact .done

theorem rejects : Rejects (.object fields) ofJson? := by
  refine .object ?_
  refine .withDefault Json.rejects_string fun _ ↦ ?_
  refine .optional Json.rejects_instant fun _ ↦ ?_
  exact .done

end Directory

namespace SyncResult

def fields : List Field :=
  [("ok", bool, .default (.bool false)), ("returnCode", int32, .default (.ofInt32 0)),
    ("details", strings, .default (stringList [])),
    ("srcDir", .object Directory.fields, .default ({} : Directory).toJson),
    ("dstDir", .object Directory.fields, .default ({} : Directory).toJson)]

theorem reads (r : SyncResult) : Reads (.object fields) ofJson? r.toJson r := by
  refine .object (by decide) (by simp) ?_
  refine .withDefault (by simp) (Json.reads_bool r.ok) rfl ?_
  refine .withDefault (by simp) (Json.reads_int32 r.returnCode) rfl ?_
  refine .withDefault (by simp) (reads_strings r.details) rfl ?_
  refine .withDefault (by simp) (Directory.reads r.srcDir) (Directory.reads {}).written ?_
  refine .withDefault (by simp) (Directory.reads r.dstDir) (Directory.reads {}).written ?_
  exact .done

theorem rejects : Rejects (.object fields) ofJson? := by
  refine .object ?_
  refine .withDefault Json.rejects_bool fun _ ↦ ?_
  refine .withDefault Json.rejects_int32 fun _ ↦ ?_
  refine .withDefault rejects_strings fun _ ↦ ?_
  refine .withDefault Directory.rejects fun _ ↦ ?_
  refine .withDefault Directory.rejects fun _ ↦ ?_
  exact .done

end SyncResult

namespace DummyArgs

def fields : List Field :=
  [("durationMs", uint64, .default (.ofUInt64 0)), ("fail", bool, .default (.bool false))]

theorem reads (a : DummyArgs) : Reads (.object fields) ofJson? a.toJson a := by
  refine .object (by decide) (by simp) ?_
  refine .withDefault (by simp) (Json.reads_uint64 a.durationMs) rfl ?_
  refine .withDefault (by simp) (Json.reads_bool a.fail) rfl ?_
  exact .done

theorem rejects : Rejects (.object fields) ofJson? := by
  refine .object ?_
  refine .withDefault Json.rejects_uint64 fun _ ↦ ?_
  refine .withDefault Json.rejects_bool fun _ ↦ ?_
  exact .done

end DummyArgs

namespace DummyResult

def fields : List Field := [("payload", string, .required)]

theorem reads (r : DummyResult) : Reads (.object fields) ofJson? r.toJson r := by
  refine .object (by decide) (by simp) ?_
  refine .required (by simp) (Json.reads_string r.payload) ?_
  exact .done

theorem rejects : Rejects (.object fields) ofJson? := by
  refine .object ?_
  refine .required Json.rejects_string fun _ ↦ ?_
  exact .done

end DummyResult

namespace Work

def settle : Work → Work
  | liveAttributes aliased atoms lines args => liveAttributes aliased atoms lines args.settle
  | w => w

def fields : JobKind → List Field
  | .liveAttributes =>
    [("aliasedCorpusId", string, .optional), ("processedAtoms", uint64, .default (.ofUInt64 0)),
      ("processedLines", uint64, .default (.ofUInt64 0)),
      ("args", .object LiveAttributesArgs.fields, .default ({} : LiveAttributesArgs).toJson)]
  | .indexUpdate =>
    [("args", .object IndexUpdateArgs.fields, .default ({} : IndexUpdateArgs).toJson),
      ("result", .object IndexUpdateResult.fields, .optional)]
  | .ngrams => [("result", .object NgramsResult.fields, .optional)]
  | .keywords =>
    [("args", .object KeywordsArgs.fields, .default ({} : KeywordsArgs).toJson),
      ("result", .object KeywordsResult.fields, .optional)]
  | .corpusSync => [("result", .object SyncResult.fields, .optional)]
  | .dummy =>
    [("args", .object DummyArgs.fields, .default ({} : DummyArgs).toJson),
      ("result", .object DummyResult.fields, .optional)]

theorem restores (w : Work) :
    Restores (fields w.kind) w.toMembers (fun c ↦ ofMembers? c w.kind) w.settle := by
  cases w with
  | liveAttributes aliased atoms lines args =>
    refine .optional (o := aliased) (by simp [toMembers]) Json.reads_string (by simp) ?_
    refine .withDefault (by simp [toMembers]) (Json.reads_uint64 atoms) rfl ?_
    refine .withDefault (by simp [toMembers]) (Json.reads_uint64 lines) rfl ?_
    refine .withDefault (by simp [toMembers]) args.reads (LiveAttributesArgs.reads {}).written ?_
    exact .done
  | indexUpdate args result =>
    refine .withDefault (by simp [toMembers]) args.reads (IndexUpdateArgs.reads {}).written ?_
    refine .optional (o := result) (by simp [toMembers]) IndexUpdateResult.reads
      (by simp [IndexUpdateResult.toJson]) ?_
    exact .done
  | ngrams result =>
    refine .optional (o := result) (by simp [toMembers]) NgramsResult.reads
      (by simp [NgramsResult.toJson]) ?_
    exact .done
  | keywords args result =>
    refine .withDefault (by simp [toMembers]) args.reads (KeywordsArgs.reads {}).written ?_
    refine .optional (o := result) (by simp [toMembers]) KeywordsResult.reads
      (by simp [KeywordsResult.toJson]) ?_
    exact .done
  | corpusSync result =>
    refine .optional (o := result) (by simp [toMembers]) SyncResult.reads
      (by simp [SyncResult.toJson]) ?_
    exact .done
  | dummy args result =>
    refine .withDefault (by simp [toMembers]) args.reads (DummyArgs.reads {}).written ?_
    refine .optional (o := result) (by simp [toMembers]) DummyResult.reads
      (by simp [DummyResult.toJson]) ?_
    exact .done

theorem refuses (k : JobKind) : Refuses (fields k) fun c ↦ ofMembers? c k := by
  cases k with
  | liveAttributes =>
    refine .optional Json.rejects_string fun _ ↦ ?_
    refine .withDefault Json.rejects_uint64 fun _ ↦ ?_
    refine .withDefault Json.rejects_uint64 fun _ ↦ ?_
    refine .withDefault LiveAttributesArgs.rejects fun _ ↦ ?_
    exact .done
  | indexUpdate =>
    refine .withDefault IndexUpdateArgs.rejects fun _ ↦ ?_
    refine .optional IndexUpdateResult.rejects fun _ ↦ ?_
    exact .done
  | ngrams =>
    refine .optional NgramsResult.rejects fun _ ↦ ?_
    exact .done
  | keywords =>
    refine .withDefault KeywordsArgs.rejects fun _ ↦ ?_
    refine .optional KeywordsResult.rejects fun _ ↦ ?_
    exact .done
  | corpusSync =>
    refine .optional SyncResult.rejects fun _ ↦ ?_
    exact .done
  | dummy =>
    refine .withDefault DummyArgs.rejects fun _ ↦ ?_
    refine .optional DummyResult.rejects fun _ ↦ ?_
    exact .done

def keys : List String := ["aliasedCorpusId", "processedAtoms", "processedLines", "args", "result"]

theorem keys_toMembers (w : Work) : (w.toMembers.map (·.1)).Sublist keys := by
  have hk : List.Sublist ["result"] keys := by decide
  have hk' : List.Sublist ["args", "result"] keys := by decide
  cases w with
  | liveAttributes aliased atoms lines args =>
    rw [toMembers, List.map_append]
    exact (keys_ofOption ..).append
      (List.sublist_append_left ["processedAtoms", "processedLines", "args"] ["result"])
  | indexUpdate args result => exact ((keys_ofOption ..).cons_cons "args").trans hk'
  | ngrams result => exact (keys_ofOption ..).trans hk
  | keywords args result => exact ((keys_ofOption ..).cons_cons "args").trans hk'
  | corpusSync result => exact (keys_ofOption ..).trans hk
  | dummy args result => exact ((keys_ofOption ..).cons_cons "args").trans hk'

theorem values_toMembers (w : Work) {k : String} (hk : k ∉ keys) : w.toMembers.values k = [] :=
  values_eq_nil fun h ↦ hk (w.keys_toMembers.subset h)

theorem keys_fields (k : JobKind) : ((fields k).map (·.1)).Sublist keys := by
  cases k <;> decide

end Work

namespace Job

def settle (j : Job) : Job := { j with work := j.work.settle }

def kindField : Field := ("type", Layout.kind, .required)

def sharedFields : List Field :=
  [("id", string, .required), ("corpusId", string, .required), ("start", instant, .required),
    ("update", instant, .required), ("finished", bool, .default (.bool false)),
    ("error", string, .optional), ("numRestarts", uint32, .default (.ofUInt32 0))]

def fields (k : JobKind) : List Field := kindField :: (sharedFields ++ Work.fields k)

/-- The layout of a job of some kind. -/
def layout (k : JobKind) : Layout := .object (fields k)

theorem nodup_fields (k : JobKind) : ((fields k).map (·.1)).Nodup := by
  rw [fields, List.map_cons, List.map_append]
  exact (((List.Sublist.refl _).append (Work.keys_fields k)).cons_cons _).nodup (by decide)

theorem nodup_toMembers (j : Job) : (j.toMembers.map (·.1)).Nodup := by
  have hk : (j.toMembers.map (·.1)).Sublist
      (["type", "id", "corpusId", "start", "update", "finished"] ++ ["error"] ++
        "numRestarts" :: Work.keys) := by
    rw [toMembers, List.map_append, List.map_append]
    exact ((List.Sublist.refl _).append (keys_ofOption ..)).append
      (j.work.keys_toMembers.cons_cons "numRestarts")
  exact hk.nodup (by decide)

theorem values_toMembers (j : Job) {k : String} (hk : k ∈ Work.keys) :
    j.work.toMembers.values k = j.toMembers.values k := by
  simp only [Work.keys, List.mem_cons, List.not_mem_nil, or_false] at hk
  rcases hk with rfl | rfl | rfl | rfl | rfl <;> simp [toMembers]

theorem restores (j : Job) :
    Restores (fields j.kind) j.toMembers ofMembers? j.settle := by
  have hw {k : String} (hk : k ∉ Work.keys) := j.work.values_toMembers hk
  have hv (x : Field) (hx : x ∈ Work.fields j.kind) := j.values_toMembers
    ((Work.keys_fields j.kind).subset (List.mem_map_of_mem hx))
  refine .required (by simp [toMembers, hw, Work.keys]) (Json.reads_kind j.kind) ?_
  refine .required (by simp [toMembers, hw, Work.keys]) (Json.reads_string j.id) ?_
  refine .required (by simp [toMembers, hw, Work.keys]) (Json.reads_string j.corpusId) ?_
  refine .required (by simp [toMembers, hw, Work.keys]) (Json.reads_instant j.start) ?_
  refine .required (by simp [toMembers, hw, Work.keys]) (Json.reads_instant j.update) ?_
  refine .withDefault (by simp [toMembers, hw, Work.keys]) (Json.reads_bool j.finished) rfl ?_
  refine .optional (o := j.error) (by simp [toMembers, hw, Work.keys]) Json.reads_string
    (by simp) ?_
  refine .withDefault (by simp [toMembers, hw, Work.keys]) (Json.reads_uint32 j.numRestarts) rfl ?_
  exact .map (j.work.restores.congr hv)

theorem ofJson?_drift {j : Job} {v : Json} (h : Drift (layout j.kind) j.toJson v) :
    ofJson? v = some j.settle := by
  obtain ⟨m, rfl, ht⟩ := h.traced (nodup_fields j.kind) j.nodup_toMembers
  exact j.restores _ ht

/-- Entries that are no job: no object, of no known kind, or unfit for the layout of their kind, at
any level. -/
inductive Unreadable : Json → Prop
  | atom {v : Json} (h : ∀ m, v ≠ .obj m) : Unreadable v
  | unknown {m : Members} (h : ∀ k : JobKind, (m.values "type").getLast? ≠ some k.toJson) :
      Unreadable (.obj m)
  | misfit {m : Members} {k : JobKind} (ht : (m.values "type").getLast? = some k.toJson)
      (h : Misfit (layout k) (.obj m)) : Unreadable (.obj m)

theorem refuses_kind {m : Members} (hs : Spoilt m kindField) :
    ofMembers? (Json.canonicalMembers [] m) = none := by
  rw [ofMembers?, hs.required Json.rejects_kind]
  rfl

theorem refuses {m : Members} {k : JobKind} (ht : (m.values "type").getLast? = some k.toJson)
    (hs : ∃ x ∈ sharedFields ++ Work.fields k, Spoilt m x) :
    ofMembers? (Json.canonicalMembers [] m) = none := by
  have hk : Members.required (Json.canonicalMembers [] m) "type"
      (fun v ↦ v.asString?.bind JobKind.ofName?) = some k := by
    rw [Members.required, Json.find?_canonical, ht]
    exact JobKind.ofName?_name k
  refine Refuses.tagged (sharedFields ++ Work.fields ·) (fun _ ↦ rfl) (fun k ↦ ?_) hk hs
  refine .required Json.rejects_string fun _ ↦ ?_
  refine .required Json.rejects_string fun _ ↦ ?_
  refine .required Json.rejects_instant fun _ ↦ ?_
  refine .required Json.rejects_instant fun _ ↦ ?_
  refine .withDefault Json.rejects_bool fun _ ↦ ?_
  refine .optional Json.rejects_string fun _ ↦ ?_
  refine .withDefault Json.rejects_uint32 fun _ ↦ ?_
  exact (Work.refuses k).map

theorem spoilt_kind {m : Members}
    (h : ∀ k : JobKind, (m.values "type").getLast? ≠ some k.toJson) : Spoilt m kindField := by
  cases ht : (m.values "type").getLast? with
  | none => exact .missing (List.getLast?_eq_none_iff.1 ht)
  | some v =>
    refine .misfit ht (fun h ↦ nomatch h) (.plain ?_)
    rintro ⟨s, hs, rfl⟩
    obtain ⟨k, -, rfl⟩ := List.mem_map.1 hs
    exact h k ht

theorem ofJson?_unreadable {v : Json} (h : Unreadable v) : ofJson? v = none := by
  cases h with
  | atom h =>
    cases v with
    | obj m => exact absurd rfl (h m)
    | _ => rfl
  | unknown h => exact refuses_kind (spoilt_kind h)
  | misfit ht h =>
    cases h with
    | atom ho => exact absurd rfl (ho _)
    | member hx hs =>
      rcases List.mem_cons.1 hx with rfl | hx
      · exact refuses_kind hs
      · exact refuses ht ⟨_, hx, hs⟩

end Job

end JobEngine
