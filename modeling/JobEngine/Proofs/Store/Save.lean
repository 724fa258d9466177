import JobEngine.Store.Basic

namespace JobEngine

namespace FileSystem

variable {fs fs' : FileSystem} {p source target : Path} {parts : List String}
  {content : ByteArray}

theorem find?_put (fs : FileSystem) (n : Node) (h : ¬ (parts = [] ∨ parts = ["/"])) :
    (fs.put parts n).find? parts = some n := by
  rw [find?, if_neg h]
  simp [put]

theorem of_accepts (h : fs.accepts p = true) :
    p.folder = false ∧ ¬ (p.parts = [] ∨ p.parts = ["/"]) := by
  simp only [accepts, Bool.and_eq_true, Bool.not_eq_true', decide_eq_true_eq] at h
  obtain ⟨⟨⟨hf, hne⟩, -⟩, hd⟩ := h
  refine ⟨hf, ?_⟩
  rintro (hp | hp)
  · exact hne hp
  · simp [isDirectory, find?, hp] at hd

theorem find?_write (h : fs.write p content = some fs') :
    fs'.find? p.parts = some (.file content) := by
  unfold write at h
  split at h
  · next ha =>
    cases h
    exact find?_put fs _ (of_accepts ha).2
  · cases h

theorem read_rename (h : fs.rename source target = some fs')
    (hs : fs.find? source.parts = some (.file content)) : fs'.read target = some content := by
  simp only [rename, hs] at h
  split at h
  · next ha =>
    cases h
    obtain ⟨hf, hp⟩ := of_accepts ha
    simp only [read, hf, find?_put _ _ hp, Bool.false_eq_true, ↓reduceIte]
  · cases h

theorem perform_cons_eq_ok {step : Step} {steps : List Step}
    (h : perform (step :: steps) fs = (.ok (), fs')) :
    ∃ next, step.perform fs = some next ∧ perform steps next = (.ok (), fs') := by
  rw [perform] at h
  cases hs : step.perform fs with
  | none => simp [hs] at h
  | some next => exact ⟨next, rfl, by simpa only [hs] using h⟩

end FileSystem

namespace Store

variable {s : Store} {fs fs' : FileSystem} {jobs : List Job}

/-- The state file holds some jobs. -/
def Holds (s : Store) (fs : FileSystem) (jobs : List Job) : Prop :=
  fs.read s.target = some (render jobs).toUTF8

/-- The written form of some jobs reads back as these jobs. -/
def Survives (jobs : List Job) : Prop := parse (render jobs).toUTF8 = .ok jobs

theorem holds_of_save (h : s.save jobs fs = (.ok (), fs')) : s.Holds fs' jobs := by
  obtain ⟨made, -, h⟩ := FileSystem.perform_cons_eq_ok h
  obtain ⟨written, hw, h⟩ := FileSystem.perform_cons_eq_ok h
  obtain ⟨renamed, hr, h⟩ := FileSystem.perform_cons_eq_ok h
  cases h
  exact FileSystem.read_rename hr (FileSystem.find?_write hw)

theorem save_first (jobs : List Job) : (save ⟨"jobs.json"⟩ jobs {}).1 = .ok () := by
  rfl

theorem Holds.load (h : s.Holds fs jobs) : s.load fs = parse (render jobs).toUTF8 := by
  rw [Store.load, show fs.read s.target = _ from h]

theorem Holds.loadOrEmpty (h : s.Holds fs jobs) (hj : Survives jobs) : s.loadOrEmpty fs = jobs := by
  rw [Store.loadOrEmpty, h.load, show parse _ = _ from hj]

theorem fromUTF8?_toUTF8 (text : String) : String.fromUTF8? text.toUTF8 = some text :=
  dif_pos text.isValidUTF8

/-- The entries of the text of some values, without the detour through a string. -/
def entriesOf? (items : List Json) : Option (List Json) :=
  match (Token.scan (Json.prettyText 0 (.arr items))).bind (Json.readValue Json.maxDepth []) with
  | some (.arr items) => some items
  | _ => none

theorem parse_render (jobs : List Job) :
    parse (render jobs).toUTF8 = match entriesOf? (jobs.map Job.toJson) with
      | some items => .ok (items.filterMap Job.ofJson?)
      | none => .error .unreadable := by
  have hr : Json.read (render jobs) =
      (Token.scan (Json.prettyText 0 (.arr (jobs.map Job.toJson)))).bind
        (Json.readValue Json.maxDepth []) := by
    simp only [render, Json.read, Json.readUpTo, Json.pretty, String.toList_ofList]
  have he : entries? (render jobs) = entriesOf? (jobs.map Job.toJson) := by
    rw [entries?, hr]
    rfl
  cases hi : entriesOf? (jobs.map Job.toJson) with
  | none => simp only [parse, fromUTF8?_toUTF8, Option.bind_some, he, hi]
  | some items => simp only [parse, fromUTF8?_toUTF8, Option.bind_some, he, hi]

theorem survives_of_entriesOf? (h : (entriesOf? (jobs.map Job.toJson)).map
    (·.filterMap Job.ofJson?) = some jobs) : Survives jobs := by
  obtain ⟨items, hi, rfl⟩ := Option.map_eq_some_iff.1 h
  rw [Survives, parse_render, hi]

end Store

end JobEngine
