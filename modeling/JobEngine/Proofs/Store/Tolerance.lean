import JobEngine.Proofs.Json.Soundness
import JobEngine.Proofs.Store.RoundTrip

namespace JobEngine

theorem Job.settle_eq {j : Job} (h : ∀ c ∈ j.work.conf?, c.val ≠ .null) : j.settle = j := by
  obtain ⟨_, _, _, _, _, _, _, work⟩ := j
  cases work with
  | liveAttributes aliased atoms lines args =>
    obtain ⟨_, _, _, _, conf⟩ := args
    cases conf with
    | none => rfl
    | some c =>
      have hc : c.val ≠ .null := h c rfl
      rw [settle, Work.settle, LiveAttributesArgs.settle, Option.filter_some,
        if_pos (by simpa using hc)]
  | _ => rfl

namespace Store

/-- A text holds jobs if it spells an array that is not nested too deeply, whatever its entries. -/
theorem parse_eq_ok_iff {text : String} {jobs : List Job} : parse text.toUTF8 = .ok jobs ↔
    ∃ items, Json.Spells text (.arr items) ∧ (Json.arr items).depth ≤ Json.maxDepth ∧
      items.filterMap Job.ofJson? = jobs := by
  constructor
  · intro h
    rw [parse, fromUTF8?_toUTF8, Option.bind_some, entries?] at h
    cases hr : Json.read text with
    | none => simp only [hr, reduceCtorEq] at h
    | some v =>
      cases v with
      | arr items =>
        simp only [hr, Except.ok.injEq] at h
        obtain ⟨hs, hd⟩ := Json.read_eq_some_iff.1 hr
        exact ⟨items, hs, hd, h⟩
      | _ => simp only [hr, reduceCtorEq] at h
  · rintro ⟨items, hs, hd, rfl⟩
    rw [parse_spells hs, if_pos hd]

/-- The jobs that entries of a state file stand for. An entry is what the written form of a job,
whose settings are not null, has drifted to, or it is no job. -/
inductive Mixed : List Json → List Job → Prop
  | nil : Mixed [] []
  | job {items : List Json} {jobs : List Job} {v : Json} {j : Job}
      (hc : ∀ c ∈ j.work.conf?, c.val ≠ .null) (hd : Drift (Job.layout j.kind) j.toJson v)
      (h : Mixed items jobs) : Mixed (v :: items) (j :: jobs)
  | other {items : List Json} {jobs : List Job} {v : Json} (hv : Job.ofJson? v = none)
      (h : Mixed items jobs) : Mixed (v :: items) jobs

theorem Mixed.filterMap {items : List Json} {jobs : List Job} (h : Mixed items jobs) :
    items.filterMap Job.ofJson? = jobs := by
  induction h with
  | nil => rfl
  | job hc hd _ ih =>
    have hv := Job.ofJson?_drift hd
    rw [Job.settle_eq hc] at hv
    rw [List.filterMap_cons_some hv, ih]
  | other hv _ ih => rw [List.filterMap_cons_none hv, ih]

/-- A job is read from whatever its written form has drifted to; an entry that is no object, of an
unknown kind, short of a required field or with a field of another type is not. From a file with
such entries, in whatever way the array is spelled, the jobs are loaded in order if nothing in it is
nested too deeply, and otherwise nothing is. -/
theorem load_mixed (s : Store) (fs : FileSystem) (text : String) (items : List Json)
    (jobs : List Job) (hf : fs.read s.target = some text.toUTF8)
    (ht : Json.Spells text (.arr items)) (hm : Mixed items jobs) :
    (∀ (j : Job) (v : Json), (∀ c ∈ j.work.conf?, c.val ≠ .null) →
      Drift (Job.layout j.kind) j.toJson v → Job.ofJson? v = some j) ∧
    (∀ v, Job.Unreadable v → Job.ofJson? v = none) ∧
    s.load fs = if (Json.arr items).depth ≤ Json.maxDepth then .ok jobs
      else .error .unreadable := by
  refine ⟨?_, fun v ↦ Job.ofJson?_unreadable, ?_⟩
  · intro j v hc hd
    rw [Job.ofJson?_drift hd, Job.settle_eq hc]
  · rw [load, hf, ← hm.filterMap]
    exact parse_spells ht

def holding (items : List Json) : FileSystem :=
  ⟨[(["jobs.json"], .file (Json.arr items).pretty.toUTF8)]⟩

def plainJob : Job := .create "plain" "syn2020" sampleInstant (.dummy {} none)

def driftedEntry : Json :=
  .obj [("remark", .arr [.null]), ("update", .str sampleInstant.text),
    ("start", .str sampleInstant.text), ("corpusId", .str "syn2020"), ("id", .str "plain"),
    ("type", .str "dummy-job")]

theorem drift_driftedEntry : Drift (Job.layout plainJob.kind) plainJob.toJson driftedEntry := by
  have hf : Job.fields plainJob.kind = Job.kindField :: (Job.sharedFields ++
    [("args", .object DummyArgs.fields, .default ({} : DummyArgs).toJson),
      ("result", .object DummyResult.fields, .optional)]) := rfl
  have h₁ : Edit (Job.layout plainJob.kind) plainJob.toJson (.obj plainJob.toMembers.reverse) :=
    .reorder (List.reverse_perm _).symm
  have h₂ {m : Members} : Edit (Job.layout plainJob.kind)
      (.obj (("args", ({} : DummyArgs).toJson) :: m)) (.obj m) :=
    .drop (l := .object DummyArgs.fields) (by simp [hf])
  have h₃ {m : Members} : Edit (Job.layout plainJob.kind)
      (.obj (("numRestarts", .ofUInt32 0) :: m)) (.obj m) :=
    .drop (l := .uint32) (by simp [hf, Job.sharedFields])
  have h₄ {m : Members} : Edit (Job.layout plainJob.kind)
      (.obj (("finished", .bool false) :: m)) (.obj m) :=
    .drop (l := .bool) (by simp [hf, Job.sharedFields])
  have h₅ {m : Members} {v : Json} : Edit (Job.layout plainJob.kind)
      (.obj m) (.obj (("remark", v) :: m)) :=
    .add (by simp [hf, Job.kindField, Job.sharedFields])
  exact .head h₁ (.head h₂ (.head h₃ (.head h₄ (.single h₅))))

def mixedEntries : List Json :=
  [.str "no entry", driftedEntry, .obj [("type", .str "unknown"), ("id", .str "other")]]

theorem load_mixed_sample :
    Job.ofJson? driftedEntry = some plainJob ∧ Job.ofJson? (.str "no entry") = none ∧
      load ⟨"jobs.json"⟩ (holding mixedEntries) = .ok [plainJob] := by
  have hc : ∀ c ∈ plainJob.work.conf?, c.val ≠ .null := nofun
  have hu : Job.Unreadable (.str "no entry") := .atom fun _ ↦ Json.noConfusion
  have hk : Job.Unreadable (.obj [("type", .str "unknown"), ("id", .str "other")]) :=
    .unknown (by rintro (_ | _ | _ | _ | _ | _) <;> decide)
  have hm : Mixed mixedEntries [plainJob] :=
    .other (Job.ofJson?_unreadable hu) (.job hc drift_driftedEntry
      (.other (Job.ofJson?_unreadable hk) .nil))
  have hs : Json.Spells (Json.arr mixedEntries).pretty (.arr mixedEntries) := Json.spells_pretty _
  obtain ⟨h₁, h₂, h₃⟩ := load_mixed ⟨"jobs.json"⟩ (holding mixedEntries) _ _ _ rfl hs hm
  exact ⟨h₁ _ _ hc drift_driftedEntry, h₂ _ hu, h₃.trans (if_pos (by decide))⟩

/-- A job stands beside an entry that is no object, and is lost with it. -/
theorem deep_entry_loses_job :
    Job.Unreadable (nest 127) ∧ Mixed [nest 127, plainJob.toJson] [plainJob] ∧
      load ⟨"jobs.json"⟩ (holding [nest 127, plainJob.toJson]) = .error .unreadable := by
  have hu : Job.Unreadable (nest 127) := .atom fun _ ↦ Json.noConfusion
  have hm : Mixed [nest 127, plainJob.toJson] [plainJob] :=
    .other (Job.ofJson?_unreadable hu) (.job nofun .refl .nil)
  refine ⟨hu, hm, ?_⟩
  have hs : Json.Spells (Json.arr [nest 127, plainJob.toJson]).pretty
      (.arr (Json.rereadItems [nest 127, plainJob.toJson])) := Json.spells_pretty _
  have hd : Json.maxDepth < (Json.arr (Json.rereadItems [nest 127, plainJob.toJson])).depth := by
    rw [Json.depth, Json.depthItems_reread, Json.depthItems, depth_nest]
    exact Nat.lt_succ_of_le (le_max_left _ _)
  exact (parse_spells hs).trans (if_neg (Nat.not_le.2 hd))

end Store

end JobEngine
