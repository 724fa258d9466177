import JobEngine.Engine.Basic

namespace JobEngine

variable {P : Job → Prop} {j : Job} {t : Moment}

/-- What a new update time, status or work does not change about a job. -/
structure Lasting (P : Job → Prop) : Prop where
  touch : ∀ j now, P j → P (j.touch now)
  finish : ∀ j now, P j → P (j.finish now)
  fail : ∀ j now error, P j → P (j.fail now error)
  work : ∀ (j : Job) work, P j → P { j with work }

def Instruction.Patches : Instruction → Prop
  | .report _ | .revise _ => True
  | _ => False

def Pause.report? : Pause → Option Job
  | .reporting j => some j
  | _ => .none

namespace Process

variable {p q : Process}

/-- The process gets turns, and its mailbox is emptied now and then. -/
inductive Later (p : Process) : Process → Prop
  | refl : Later p p
  | resume {q : Process} (t : Moment) : Later p q → Later p { q.resume t with accepted := [] }
  | heard {q : Process} : Later p q → Later p { q with mailbox := [] }

/-- All that a process reports, has reported and will report satisfies `P`. -/
structure Reports (P : Job → Prop) (p : Process) : Prop where
  job : P p.task.job
  program : ∀ i ∈ p.task.program, ¬ i.Patches
  mailbox : ∀ j ∈ p.mailbox, P j
  pending : ∀ j ∈ p.pause.report?, P j

namespace Reports

theorem pausedBy (h : p.Reports P) {pause : Pause} (hp : pause.report? = none) :
    (p.pausedBy pause).Reports P := by
  refine { h with pending := fun j hj ↦ ?_ }
  have hj : j ∈ pause.report? := hj
  rw [hp] at hj
  cases hj

theorem answered (h : p.Reports P) (ok : Bool) : (p.answered ok).Reports P :=
  { h with pending := fun _ hj ↦ by cases hj }

theorem offer (h : p.Reports P) (hj : P j) : (p.offer t j).Reports P := by
  unfold Process.offer
  split
  · exact h.answered false
  · split
    · have hm : ∀ k ∈ p.mailbox ++ [j], P k := by
        intro k hk
        rcases List.mem_append.1 hk with hk | hk
        · exact h.mailbox k hk
        · rwa [List.mem_singleton.1 hk]
      have h' : { p with mailbox := p.mailbox ++ [j] }.Reports P := { h with mailbox := hm }
      exact h'.answered true
    · refine { h with pending := fun k hk ↦ ?_ }
      obtain rfl := Option.some.inj hk
      exact hj

theorem sleepFor (h : p.Reports P) {pause : Pause} (hp : pause.report? = none) (ms : Nat) :
    (p.sleepFor ms pause).Reports P := by
  unfold Process.sleepFor
  split
  · exact h.pausedBy rfl
  · exact h.pausedBy hp

theorem skipRest (h : p.Reports P) : p.skipRest.Reports P :=
  { h with program := fun _ hi ↦ absurd hi List.not_mem_nil }

theorem giveUp (h : p.Reports P) (hP : Lasting P) : (p.giveUp t).Reports P := by
  have ho := h.skipRest.offer (t := t) (hP.fail _ t.now Text.jobCancelled h.job)
  simp only [Process.giveUp]
  split
  · exact ho.pausedBy rfl
  · exact ho

theorem perform (h : p.Reports P) (hP : Lasting P) {i : Instruction} (hi : ¬ i.Patches) :
    (p.perform t i).Reports P := by
  cases i with
  | sleep ms => exact h.sleepFor rfl ms
  | sleepUnlessStopped ms =>
    simp only [Process.perform]
    split
    · exact h.giveUp hP
    · exact h.sleepFor rfl ms
  | awaitStop => exact h.pausedBy (by split <;> rfl)
  | returnIfStopped => exact h.pausedBy (by split <;> rfl)
  | panic => exact h.pausedBy rfl
  | touch => exact h.offer (hP.touch _ _ h.job)
  | finish => exact h.offer (hP.finish _ _ h.job)
  | fail error => exact h.offer (hP.fail _ _ error h.job)
  | complete work => exact h.offer (hP.finish _ _ (hP.work _ work h.job))
  | report | revise => exact absurd trivial hi

theorem run (hP : Lasting P) {is : List Instruction} (hi : ∀ i ∈ is, ¬ i.Patches)
    (h : p.Reports P) : (Process.run t is p).Reports P := by
  induction is generalizing p with
  | nil => exact h.skipRest.pausedBy rfl
  | cons i rest ih =>
    have hrest : ∀ i ∈ rest, ¬ i.Patches := fun i hm ↦ hi i (List.mem_cons_of_mem _ hm)
    have h' : { p with task.program := rest }.Reports P := { h with program := hrest }
    have hp := h'.perform (t := t) hP (hi i List.mem_cons_self)
    simp only [Process.run]
    split
    · exact ih hrest hp
    · exact hp

theorem resume (h : p.Reports P) (hP : Lasting P) : (p.resume t).Reports P := by
  have hproceed {p : Process} (h : p.Reports P) : (p.proceed t).Reports P := run hP h.program h
  unfold Process.resume
  split
  · exact h
  · split
    · split
      · exact h.giveUp hP
      · exact hproceed h
    · next j hj => exact hproceed (h.offer (h.pending j (by rw [hj]; rfl)))
    · exact h
    · exact hproceed h

theorem later (h : p.Reports P) (hP : Lasting P) (hl : p.Later q) : q.Reports P := by
  induction hl with
  | refl => exact h
  | resume t _ ih => exact { ih.resume hP with }
  | heard _ ih => exact { ih with mailbox := fun _ hj ↦ absurd hj List.not_mem_nil }

end Reports

end Process

theorem lasting_numRestarts (n : UInt32) : Lasting (·.numRestarts = n) :=
  ⟨fun _ _ h ↦ h, fun _ _ h ↦ h, fun _ _ _ h ↦ h, fun _ _ h ↦ h⟩

def Task.Reports (task : Task) (P : Job → Prop) : Prop :=
  ∀ a p, (Engine.begin ⟨a, task⟩).Later p → ∀ j ∈ p.mailbox, P j

/-- The built-in task reports what it was built from, but for status and result. -/
theorem Task.dummy_reports (hP : Lasting P) (hj : P j) {task : Task}
    (ht : Task.dummy j = .ok task) : task.Reports P := by
  intro a p hl
  unfold Task.dummy at ht
  split at ht
  · next args result hw =>
    obtain rfl := Except.ok.inj ht
    have hbegin : (Engine.begin ⟨a, ⟨j, dummyProgram args, false⟩⟩).Reports P := by
      refine ⟨hj, fun i hi ↦ ?_, fun _ hj ↦ absurd hj List.not_mem_nil, fun _ hj ↦ by cases hj⟩
      have hi : i ∈ dummyProgram args := hi
      rw [dummyProgram, List.mem_cons, List.mem_singleton] at hi
      rcases hi with rfl | rfl
      · exact id
      · split <;> exact id
    exact (hbegin.later hP hl).mailbox
  · cases ht

end JobEngine
