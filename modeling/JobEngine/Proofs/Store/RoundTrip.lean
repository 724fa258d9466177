import JobEngine.Proofs.Job.Codec
import JobEngine.Proofs.Job.Nesting
import JobEngine.Proofs.Store.Save

namespace JobEngine

theorem OpaqueJson.reread_eq {c : OpaqueJson} (h : c.val.Exact) : c.reread = c :=
  Subtype.ext (Json.reread_eq c.val h)

theorem Work.reread_eq {w : Work} (h : ∀ c ∈ w.conf?, c.val ≠ .null ∧ c.val.Exact) :
    w.reread = w := by
  cases w with
  | liveAttributes aliased atoms lines args =>
    obtain ⟨_, _, _, _, conf⟩ := args
    cases conf with
    | none => rfl
    | some c =>
      obtain ⟨hn, he⟩ := h c rfl
      rw [reread, LiveAttributesArgs.reread, Option.filter_some, if_pos (by simpa using hn),
        Option.map_some, OpaqueJson.reread_eq he]
  | _ => rfl

theorem Job.reread_eq {j : Job} (h : ∀ c ∈ j.work.conf?, c.val ≠ .null ∧ c.val.Exact) :
    j.reread = j := by
  rw [reread, Work.reread_eq h]

theorem FileSystem.perform_eq_ok {steps : List Step} {fs : FileSystem}
    (h : (perform steps fs).1 ≠ .error .io) : ∃ fs', perform steps fs = (.ok (), fs') := by
  induction steps generalizing fs with
  | nil => exact ⟨fs, rfl⟩
  | cons step steps ih =>
    rw [perform] at h ⊢
    cases hs : step.perform fs with
    | none => simp [hs] at h
    | some next =>
      simp only [hs] at h
      exact ih h

namespace Store

variable {s : Store} {fs : FileSystem} {jobs : List Job}

/-- The three containers around any settings in the file leave them enough room. -/
def Shallow (jobs : List Job) : Prop :=
  ∀ j ∈ jobs, ∀ c ∈ j.work.conf?, c.val.depth + 3 ≤ Json.maxDepth

theorem depth_file : (Json.arr (jobs.map Job.toJson)).depth ≤ Json.maxDepth ↔ Shallow jobs := by
  have hd : Json.maxDepth = 123 + 3 + 1 := rfl
  rw [hd, Json.depth_arr_le, List.forall_mem_map, Shallow, hd]
  simp only [Job.depth_toJson, Nat.add_right_comm 123 3 1, Nat.add_le_add_iff_right]

theorem ofJson?_entries (jobs : List Job) :
    (Json.rereadItems (jobs.map Job.toJson)).filterMap Job.ofJson? = jobs.map Job.reread := by
  rw [Json.rereadItems_eq_map, List.map_map, List.filterMap_map, ← List.filterMap_eq_map]
  exact List.filterMap_congr fun j _ ↦ j.ofJson?_toJson

theorem parse_spells {text : String} {items : List Json} (h : Json.Spells text (.arr items)) :
    parse text.toUTF8 = if (Json.arr items).depth ≤ Json.maxDepth then
      .ok (items.filterMap Job.ofJson?) else .error .unreadable := by
  simp only [parse, fromUTF8?_toUTF8, Option.bind_some, entries?, h.read]
  by_cases hd : (Json.arr items).depth ≤ Json.maxDepth
  · simp only [if_pos hd]
  · simp only [if_neg hd]

theorem parse_file (jobs : List Job) :
    parse (render jobs).toUTF8 = if (Json.arr (jobs.map Job.toJson)).depth ≤ Json.maxDepth then
      .ok (jobs.map Job.reread) else .error .unreadable := by
  have hs : Json.Spells (render jobs) (.arr (Json.rereadItems (jobs.map Job.toJson))) :=
    Json.spells_pretty _
  have hd : (Json.arr (Json.rereadItems (jobs.map Job.toJson))).depth = (Json.arr _).depth :=
    Json.depth_reread (.arr (jobs.map Job.toJson))
  rw [parse_spells hs, hd, ofJson?_entries]

theorem parse_shallow (h : Shallow jobs) :
    parse (render jobs).toUTF8 = .ok (jobs.map Job.reread) := by
  rw [parse_file, if_pos (depth_file.2 h)]

theorem parse_deep (h : ¬ Shallow jobs) : parse (render jobs).toUTF8 = .error .unreadable := by
  rw [parse_file, if_neg (mt depth_file.1 h)]

theorem Holds.loadOrEmpty_of_shallow (h : s.Holds fs jobs) (hd : Shallow jobs) :
    s.loadOrEmpty fs = jobs.map Job.reread := by
  rw [Store.loadOrEmpty, h.load, parse_shallow hd]

theorem Holds.loadOrEmpty_of_deep (h : s.Holds fs jobs) (hd : ¬ Shallow jobs) :
    s.loadOrEmpty fs = [] := by
  rw [Store.loadOrEmpty, h.load, parse_deep hd]

theorem Holds.nodup_loadOrEmpty (h : s.Holds fs jobs) (hn : (jobs.map (·.id)).Nodup) :
    ((s.loadOrEmpty fs).map (·.id)).Nodup := by
  by_cases hd : Shallow jobs
  · rw [h.loadOrEmpty_of_shallow hd, List.map_map]
    exact hn
  · rw [h.loadOrEmpty_of_deep hd]
    exact List.nodup_nil

theorem survives_of_shallow (h : Shallow jobs)
    (he : ∀ j ∈ jobs, ∀ c ∈ j.work.conf?, c.val ≠ .null ∧ c.val.Exact) : Survives jobs := by
  have hr : ∀ j ∈ jobs, j.reread = j := fun j hj ↦ j.reread_eq (he j hj)
  rw [Survives, parse_shallow h, List.map_congr_left hr, List.map_id']

theorem save_eq_ok (h : (s.save jobs fs).1 ≠ .error .io) :
    (s.save jobs fs).1 = .ok () ∧ s.Holds (s.save jobs fs).2 jobs := by
  obtain ⟨fs', hs⟩ := FileSystem.perform_eq_ok h
  have hs : s.save jobs fs = (.ok (), fs') := hs
  rw [hs]
  exact ⟨rfl, holds_of_save hs⟩

def sampleInstant : Instant := (Instant.ofSeconds? 1714564800 250000000).get (by decide)

def sampleConf : OpaqueJson :=
  ⟨.obj [("columns", .arr [.num (.int ⟨-3, by decide, by decide⟩), .null]),
    ("limits", .obj []), ("top", .num (.int ⟨18446744073709551615, by decide, by decide⟩))],
    by decide, ⟨trivial, trivial, trivial⟩, ⟨.nil, trivial⟩, trivial, trivial⟩

def sampleJobs : List Job :=
  [{ id := "live", corpusId := "syn2020", start := sampleInstant, update := sampleInstant,
      finished := true, error := some "no such \"file\"", numRestarts := 2,
      work := .liveAttributes (some "syn") 10 20
        { append := true, tagsetName := some "pp", extractorConf := some sampleConf } },
    .create "index" "syn2020" sampleInstant
      (.indexUpdate { maxColumns := 4 } (some { usedIndexes := ["word", "tag"] })),
    .create "ngrams" "syn2020" sampleInstant (.ngrams (some { clientWarn := some "" })),
    .create "keywords" "syn2020" sampleInstant (.keywords { ngramSize := 2 } none),
    .create "sync" "syn2020" sampleInstant (.corpusSync (some
      { returnCode := -1, srcDir := { path := "/data", latestMod := some sampleInstant } })),
    .create "dummy" "syn2020" sampleInstant (.dummy { durationMs := 100 } (some { payload := "" }))]

/-- Jobs whose settings are not null, hold no double that is read as another and leave the reader
enough room are loaded as they were saved. -/
theorem load_save (s : Store) (fs : FileSystem) (jobs : List Job)
    (hs : (s.save jobs fs).1 ≠ .error .io)
    (hj : ∀ j ∈ jobs, ∀ c ∈ j.work.conf?,
      c.val ≠ .null ∧ c.val.Exact ∧ c.val.depth + 3 ≤ Json.maxDepth) :
    (s.save jobs fs).1 = .ok () ∧ s.load (s.save jobs fs).2 = .ok jobs := by
  obtain ⟨hok, hh⟩ := save_eq_ok hs
  have hd : Shallow jobs := fun j hm c hc ↦ (hj j hm c hc).2.2
  have he : ∀ j ∈ jobs, ∀ c ∈ j.work.conf?, c.val ≠ .null ∧ c.val.Exact :=
    fun j hm c hc ↦ ⟨(hj j hm c hc).1, (hj j hm c hc).2.1⟩
  exact ⟨hok, hh.load.trans (survives_of_shallow hd he)⟩

theorem load_save_sample :
    (save ⟨"jobs.json"⟩ sampleJobs {}).1 ≠ .error .io ∧
      (∀ j ∈ sampleJobs, ∀ c ∈ j.work.conf?,
        c.val ≠ .null ∧ c.val.Exact ∧ c.val.depth + 3 ≤ Json.maxDepth) ∧
      load ⟨"jobs.json"⟩ (save ⟨"jobs.json"⟩ sampleJobs {}).2 = .ok sampleJobs := by
  have hs : (save ⟨"jobs.json"⟩ sampleJobs {}).1 ≠ .error .io := by
    simp [save_first]
  have hc : sampleConf.val ≠ .null ∧ sampleConf.val.Exact ∧
      sampleConf.val.depth + 3 ≤ Json.maxDepth :=
    ⟨Json.noConfusion, ⟨⟨trivial, trivial, trivial⟩, trivial, trivial, trivial⟩, by decide⟩
  have hj : ∀ j ∈ sampleJobs, ∀ c ∈ j.work.conf?,
      c.val ≠ .null ∧ c.val.Exact ∧ c.val.depth + 3 ≤ Json.maxDepth := by
    simpa [sampleJobs, Work.conf?, Job.create] using hc
  exact ⟨hs, hj, (load_save _ _ _ hs hj).2⟩

/-- After a save that does not fail on the disk, either every job is loaded under its id, in the
same order, or the settings of one job are too deep and none is. -/
theorem load_save_or_unreadable (s : Store) (fs : FileSystem) (jobs : List Job)
    (hs : (s.save jobs fs).1 ≠ .error .io) :
    (s.save jobs fs).1 = .ok () ∧
      ((∀ j ∈ jobs, ∀ c ∈ j.work.conf?, c.val.depth + 3 ≤ Json.maxDepth) →
        s.load (s.save jobs fs).2 = .ok (jobs.map Job.reread) ∧
          (jobs.map Job.reread).map Job.id = jobs.map Job.id) ∧
      ((∃ j ∈ jobs, ∃ c ∈ j.work.conf?, Json.maxDepth < c.val.depth + 3) →
        s.load (s.save jobs fs).2 = .error .unreadable ∧
          s.loadOrEmpty (s.save jobs fs).2 = []) := by
  obtain ⟨hok, hh⟩ := save_eq_ok hs
  refine ⟨hok, fun hj ↦ ⟨hh.load.trans (parse_shallow hj), List.map_map⟩, ?_⟩
  rintro ⟨j, hj, c, hc, hd⟩
  have hdeep : ¬ Shallow jobs := fun h ↦ Nat.not_lt.2 (h j hj c hc) hd
  exact ⟨hh.load.trans (parse_deep hdeep), hh.loadOrEmpty_of_deep hdeep⟩

def nest : ℕ → Json
  | 0 => .null
  | n + 1 => .arr [nest n]

theorem depth_nest (n : ℕ) : (nest n).depth = n := by
  induction n with
  | zero => rfl
  | succ n ih => rw [nest, Json.depth, Json.depthItems, Json.depthItems, ih, Nat.max_zero]

theorem canonical_nest (n : ℕ) : (nest n).Canonical := by
  induction n with
  | zero => trivial
  | succ n ih => exact ⟨ih, trivial⟩

def nestedConf (n : ℕ) : OpaqueJson := ⟨nest n, canonical_nest n⟩

def nestedJobs (n : ℕ) : List Job :=
  [.create "deep" "syn2020" sampleInstant
      (.liveAttributes none 0 0 { extractorConf := some (nestedConf n) }),
    .create "plain" "syn2020" sampleInstant (.dummy {} none)]

theorem shallow_nestedJobs {n : ℕ} : Shallow (nestedJobs n) ↔ n ≤ 124 := by
  have hd : (nestedConf n).val.depth = n := depth_nest n
  simp [Shallow, nestedJobs, Work.conf?, Job.create, hd, Json.maxDepth]

theorem load_save_or_unreadable_sample :
    (save ⟨"jobs.json"⟩ (nestedJobs 124) {}).1 ≠ .error .io ∧
      load ⟨"jobs.json"⟩ (save ⟨"jobs.json"⟩ (nestedJobs 124) {}).2 =
        .ok ((nestedJobs 124).map Job.reread) := by
  have hs : (save ⟨"jobs.json"⟩ (nestedJobs 124) {}).1 ≠ .error .io := by
    simp [save_first]
  have hj : Shallow (nestedJobs 124) := shallow_nestedJobs.2 le_rfl
  exact ⟨hs, ((load_save_or_unreadable _ _ _ hs).2.1 hj).1⟩

/-- The save succeeds, and the job without settings is lost with the other one. -/
theorem deep_settings_lose_all_jobs :
    (save ⟨"jobs.json"⟩ (nestedJobs 125) {}).1 = .ok () ∧
      load ⟨"jobs.json"⟩ (save ⟨"jobs.json"⟩ (nestedJobs 125) {}).2 = .error .unreadable := by
  have hs : (save ⟨"jobs.json"⟩ (nestedJobs 125) {}).1 = .ok () := save_first _
  have hd : ¬ Shallow (nestedJobs 125) := fun h ↦ absurd (shallow_nestedJobs.1 h) (by decide)
  exact ⟨hs, (holds_of_save (Prod.ext hs rfl)).load.trans (parse_deep hd)⟩

end Store

end JobEngine
