import JobEngine.Proofs.Lookup
import JobEngine.Proofs.Store.RoundTrip

namespace JobEngine

namespace Path

variable {t : List Char} {parts : List String} {last word : String}

theorem splitSlash_word (h : '/' ∉ t) (word : List Char) :
    splitSlash word t = [String.ofList (word.reverse ++ t)] := by
  induction t generalizing word with
  | nil => rw [splitSlash, List.append_nil]
  | cons c t ih =>
    rw [List.mem_cons, not_or] at h
    rw [splitSlash, if_neg (Ne.symm h.1), ih h.2, List.reverse_cons, ← List.append_cons]

theorem splitSlash_append (h : '/' ∉ t) (word cs : List Char) :
    ∃ words last, splitSlash word cs = words ++ [last] ∧
      splitSlash word (cs ++ t) = words ++ [last ++ String.ofList t] := by
  induction cs generalizing word with
  | nil =>
    refine ⟨[], _, rfl, ?_⟩
    rw [List.nil_append, splitSlash_word h, String.ofList_append]
    rfl
  | cons c cs ih =>
    rw [List.cons_append, splitSlash, splitSlash]
    split
    · obtain ⟨words, last, h₁, h₂⟩ := ih []
      exact ⟨String.ofList word.reverse :: words, last, by rw [h₁]; rfl, by rw [h₂]; rfl⟩
    · exact ih (c :: word)

theorem push_ne (h : last ≠ word) : push parts last ≠ parts ++ [word] := by
  intro he
  have hl := congrArg List.length he
  unfold push at he hl
  split_ifs at he hl
  · simp at hl
  · rw [List.length_dropLast, List.length_append, List.length_singleton] at hl
    omega
  · exact h (List.singleton_inj.1 (List.append_cancel_left he))

end Path

namespace FileSystem

open Lookup

/-- What a step may leave behind that breaks off: all as it was, the first of the directories, or
the beginning of the content. A renaming is done as a whole or not at all. -/
inductive Step.Breaks : Step → FileSystem → FileSystem → Prop
  | unchanged (step : Step) (fs : FileSystem) : Breaks step fs fs
  | directories {made parts : List String} {fs fs' : FileSystem} (hp : made <+: parts)
      (hm : fs.makeDirectories made = some fs') : Breaks (.makeDirectories parts) fs fs'
  | content {p : Path} {content : ByteArray} {fs fs' : FileSystem} (n : ℕ)
      (hw : fs.write p (content.extract 0 n) = some fs') : Breaks (.write p content) fs fs'

/-- What may become of steps in order. A step that breaks off is the last one: either its error is
the answer, or the process has died and there is none. -/
inductive Attempt : List Step → FileSystem → Option (Except Error Unit) → FileSystem → Prop
  | done (fs : FileSystem) : Attempt [] fs (some (.ok ())) fs
  | diedAfter (fs : FileSystem) : Attempt [] fs none fs
  | next {step : Step} {steps : List Step} {fs mid fs' : FileSystem}
      {r : Option (Except Error Unit)} (hs : step.perform fs = some mid)
      (h : Attempt steps mid r fs') : Attempt (step :: steps) fs r fs'
  | failed {step : Step} {fs fs' : FileSystem} (steps : List Step) (hb : step.Breaks fs fs') :
      Attempt (step :: steps) fs (some (.error .io)) fs'
  | died {step : Step} {fs fs' : FileSystem} (steps : List Step) (hb : step.Breaks fs fs') :
      Attempt (step :: steps) fs none fs'

variable {fs fs' : FileSystem} {parts other way : List String} {p source target : Path}
  {content : ByteArray} {step : Step} {steps before rest : List Step}
  {r : Option (Except Error Unit)}

theorem attempt_perform (steps : List Step) (fs : FileSystem) :
    Attempt steps fs (some (perform steps fs).1) (perform steps fs).2 := by
  induction steps generalizing fs with
  | nil => exact .done fs
  | cons step steps ih =>
    rw [perform]
    cases hs : step.perform fs with
    | none => exact .failed steps (.unchanged step fs)
    | some next => exact .next hs (ih next)

theorem find?_root (h : parts = [] ∨ parts = ["/"]) (fs : FileSystem) :
    fs.find? parts = some .directory := by
  rw [find?, if_pos h]

theorem find?_erase (h : ¬ (parts = [] ∨ parts = ["/"])) (fs : FileSystem) :
    (fs.erase parts).find? parts = none := by
  rw [find?, if_neg h, erase, lookup_filter_ne, if_pos rfl]

theorem find?_erase_of_ne (fs : FileSystem) (h : parts ≠ other) :
    (fs.erase other).find? parts = fs.find? parts := by
  rw [find?, find?, erase, lookup_filter_ne, if_neg h]

theorem find?_put_of_ne (fs : FileSystem) (n : Node) (h : parts ≠ other) :
    (fs.put other n).find? parts = fs.find? parts := by
  have hl : (fs.put other n).nodes.lookup parts = (fs.erase other).nodes.lookup parts := by
    rw [put, lookup_cons, if_neg h]
  rw [← find?_erase_of_ne fs h, find?, find?, hl]

theorem find?_write_of_ne (hw : fs.write p content = some fs') (h : parts ≠ p.parts) :
    fs'.find? parts = fs.find? parts := by
  unfold write at hw
  split at hw
  · cases hw
    exact find?_put_of_ne fs _ h
  · cases hw

/-- Making directories changes nothing but the way down. -/
theorem find?_makeDirectoriesFrom (top : List String) (h : ¬ parts <+: top ++ way)
    (hm : fs.makeDirectoriesFrom top way = some fs') : fs'.find? parts = fs.find? parts := by
  induction way generalizing fs top with
  | nil =>
    cases hm
    rfl
  | cons part way ih =>
    rw [List.append_cons] at h
    obtain ⟨made, hd, hm⟩ := Option.bind_eq_some_iff.1 hm
    have hp : parts ≠ top ++ [part] := fun he ↦ h (he ▸ List.prefix_append _ _)
    rw [ih _ h hm]
    unfold makeDirectory at hd
    split at hd
    · cases hd
      rfl
    · cases hd
    · cases hd
      exact find?_put_of_ne fs _ hp

theorem find?_rename (hr : fs.rename source target = some fs') (hn : source.parts ≠ target.parts)
    (hs : ¬ (source.parts = [] ∨ source.parts = ["/"])) : fs'.find? source.parts = none := by
  unfold rename at hr
  split at hr
  · split at hr
    · cases hr
      rw [find?_put_of_ne _ _ hn, find?_erase hs]
    · cases hr
  · cases hr

/-- A step leaves what stands at a path as it is, also if it breaks off. -/
def Step.Spares (parts : List String) (step : Step) : Prop :=
  ∀ fs fs', step.perform fs = some fs' ∨ step.Breaks fs fs' → fs'.find? parts = fs.find? parts

theorem spares_makeDirectories (h : parts = [] ∨ ¬ parts <+: way) :
    (Step.makeDirectories way).Spares parts := by
  rintro fs fs' hs
  rcases h with rfl | h
  · rw [find?_root (.inl rfl), find?_root (.inl rfl)]
  rcases hs with hs | hs
  · exact find?_makeDirectoriesFrom [] h hs
  · cases hs with
    | unchanged => rfl
    | directories hp hm => exact find?_makeDirectoriesFrom [] (fun hq ↦ h (hq.trans hp)) hm

theorem spares_write (h : parts ≠ p.parts) : (Step.write p content).Spares parts := by
  rintro fs fs' (hs | hs)
  · exact find?_write_of_ne hs h
  · cases hs with
    | unchanged => rfl
    | content n hw => exact find?_write_of_ne hw h

theorem Attempt.passes (hk : ∀ step ∈ before, step.Spares parts)
    (h : Attempt (before ++ rest) fs r fs') :
    (r ≠ some (.ok ()) ∧ fs'.find? parts = fs.find? parts) ∨
      ∃ mid, perform before fs = (.ok (), mid) ∧ mid.find? parts = fs.find? parts ∧
        Attempt rest mid r fs' := by
  induction before generalizing fs with
  | nil => exact .inr ⟨fs, rfl, rfl, h⟩
  | cons step before ih =>
    obtain ⟨hs, hk⟩ := List.forall_mem_cons.1 hk
    cases h with
    | next hp h =>
      rw [← hs _ _ (.inl hp), perform, hp]
      exact ih hk h
    | failed _ hb => exact .inl ⟨by simp, hs _ _ (.inr hb)⟩
    | died _ hb => exact .inl ⟨by simp, hs _ _ (.inr hb)⟩

end FileSystem

namespace Store

open FileSystem

variable {s : Store} {fs fs' : FileSystem} {jobs : List Job} {r : Option (Except Error Unit)}

theorem append_tmp_ne {w : String} (last : String) (h : w.length < 4) : last ++ ".tmp" ≠ w := by
  rintro rfl
  have hl : ".tmp".length = 4 := rfl
  rw [String.length_append] at h
  omega

theorem exists_parts (s : Store) : ∃ parts last, s.target.parts = Path.push parts last ∧
    s.temporary.parts = parts ++ [last ++ ".tmp"] := by
  obtain ⟨words, last, ht, hw⟩ :=
    Path.splitSlash_append (t := ".tmp".toList) (by decide) [] s.path.toList
  rw [String.ofList_toList] at hw
  have hp (parts : List String) : Path.push parts (last ++ ".tmp") = parts ++ [last ++ ".tmp"] := by
    rw [Path.push, if_neg (not_or.2 ⟨append_tmp_ne _ (by decide), append_tmp_ne _ (by decide)⟩),
      if_neg (append_tmp_ne _ (by decide))]
  rw [target, temporary, Path.ofString, Path.ofString, String.toList_append, ht, hw]
  simp only [List.foldl_append, List.foldl_cons, List.foldl_nil, hp, List.length_append,
    List.length_singleton]
  refine ⟨_, last, rfl, ?_⟩
  cases words with
  | nil => rfl
  | cons w words => rfl

theorem temporary_ne (s : Store) : s.temporary.parts ≠ s.target.parts := by
  obtain ⟨parts, last, ht, hp⟩ := s.exists_parts
  have hl : last ≠ last ++ ".tmp" := by
    intro h
    have := congrArg String.length h
    rw [String.length_append] at this
    simp at this
  rw [ht, hp]
  exact (Path.push_ne hl).symm

theorem temporary_ne_root (s : Store) :
    ¬ (s.temporary.parts = [] ∨ s.temporary.parts = ["/"]) := by
  obtain ⟨parts, last, -, hp⟩ := s.exists_parts
  rw [hp]
  rintro (h | h)
  · simp at h
  · have hl : some (last ++ ".tmp") = some "/" := by
      rw [← List.getLast?_concat, h]
      rfl
    exact append_tmp_ne last (by decide) (Option.some.inj hl)

/-- No directory that a save makes stands where the state file does. -/
theorem target_not_above (s : Store) :
    s.target.parts = [] ∨ ¬ s.target.parts <+: s.target.parent := by
  by_cases h : s.target.parts = []
  · exact .inl h
  · refine .inr fun hp ↦ ?_
    have hl := hp.length_le
    have h₀ := List.length_pos_iff.2 h
    rw [Path.parent, List.length_dropLast] at hl
    omega

/-- Whatever becomes of a save, the state file is left alone or replaced by the new one: it is left
alone if the save answers an error, and replaced, with no temporary file left, if it succeeds. -/
theorem save_all_or_nothing (h : FileSystem.Attempt (s.plan jobs) fs r fs') :
    (fs'.find? s.target.parts = fs.find? s.target.parts ∨ s.Holds fs' jobs) ∧
      (∀ e, r = some (.error e) → fs'.find? s.target.parts = fs.find? s.target.parts) ∧
      (r = some (.ok ()) → s.Holds fs' jobs ∧ fs'.find? s.temporary.parts = none) := by
  have hk : ∀ step ∈ [Step.makeDirectories s.target.parent,
      .write s.temporary (render jobs).toUTF8], step.Spares s.target.parts :=
    List.forall_mem_cons.2 ⟨spares_makeDirectories s.target_not_above,
      List.forall_mem_singleton.2 (spares_write s.temporary_ne.symm)⟩
  rcases Attempt.passes hk h with ⟨hr, hf⟩ | ⟨mid, hp, hf, h⟩
  · exact ⟨.inl hf, fun _ _ ↦ hf, fun h ↦ absurd h hr⟩
  -- only the renaming is left, which is done or not
  cases h with
  | failed _ hb =>
    cases hb
    exact ⟨.inl hf, fun _ _ ↦ hf, nofun⟩
  | died _ hb =>
    cases hb
    exact ⟨.inl hf, fun _ _ ↦ hf, nofun⟩
  | next hs h =>
    have hs : mid.rename s.temporary s.target = some _ := hs
    obtain ⟨made, -, hp⟩ := perform_cons_eq_ok hp
    obtain ⟨written, hw, hp⟩ := perform_cons_eq_ok hp
    cases hp
    have hh : s.Holds _ jobs := read_rename hs (find?_write hw)
    have ht := find?_rename hs s.temporary_ne s.temporary_ne_root
    cases h with
    | done => exact ⟨.inr hh, fun _ ↦ nofun, fun _ ↦ ⟨hh, ht⟩⟩
    | diedAfter => exact ⟨.inr hh, fun _ ↦ nofun, nofun⟩

def sampleLeft : FileSystem :=
  ⟨[(["state"], .directory), (["state", "jobs.json"], .file "[]".toUTF8),
    (["state", "jobs.json.tmp"], .file "[".toUTF8)]⟩

def sampleStore : Store := ⟨"state/jobs.json"⟩

def sampleContent : ByteArray := (render sampleJobs).toUTF8

def sampleCut : FileSystem :=
  sampleLeft.put sampleStore.temporary.parts (.file (sampleContent.extract 0 3))

theorem save_all_or_nothing_sample :
    (∃ fs', FileSystem.Attempt (sampleStore.plan sampleJobs) sampleLeft none fs' ∧
      (fs'.find? sampleStore.target.parts = sampleLeft.find? sampleStore.target.parts ∨
        sampleStore.Holds fs' sampleJobs)) ∧
    (∃ fs' e, FileSystem.Attempt (sampleStore.plan sampleJobs) sampleLeft (some (.error e)) fs' ∧
      fs'.find? sampleStore.target.parts = sampleLeft.find? sampleStore.target.parts) ∧
    (∃ fs', FileSystem.Attempt (sampleStore.plan sampleJobs) sampleLeft (some (.ok ())) fs' ∧
      sampleStore.Holds fs' sampleJobs ∧ fs'.find? sampleStore.temporary.parts = none) := by
  have hb : (Step.write sampleStore.temporary sampleContent).Breaks sampleLeft sampleCut :=
    .content 3 (if_pos (by decide))
  have hd : FileSystem.Attempt (sampleStore.plan sampleJobs) sampleLeft none sampleCut :=
    .next rfl (.died _ hb)
  have he : FileSystem.Attempt (sampleStore.plan sampleJobs) sampleLeft (some (.error .io))
      sampleCut := .next rfl (.failed _ hb)
  have ho : FileSystem.Attempt (sampleStore.plan sampleJobs) sampleLeft (some (.ok ()))
    (sampleStore.save sampleJobs sampleLeft).2 := attempt_perform _ _
  exact ⟨⟨_, hd, (save_all_or_nothing hd).1⟩, ⟨_, _, he, (save_all_or_nothing he).2.1 _ rfl⟩,
    ⟨_, ho, (save_all_or_nothing ho).2.2 rfl⟩⟩

end Store

end JobEngine
