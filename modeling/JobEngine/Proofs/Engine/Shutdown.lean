import JobEngine.Engine.Shutdown
import JobEngine.Proofs.Dispatcher.Shutdown

namespace JobEngine

namespace Dispatcher

variable {τ : Type} {d d' e : Dispatcher τ} {now : Instant}
  {steps : List (Instant × Operation τ)}

/-- A dispatcher without what only its surroundings look at. -/
def core (d : Dispatcher τ) : Dispatcher τ :=
  { d with wakeup := false, stops := [], loop := .idle, launches := [], notices := [] }

theorem core_cancelAll (d : Dispatcher τ) : d.cancelAll.core = d.core.cancelAll := rfl

theorem snapshot_core (d : Dispatcher τ) : d.core.snapshot = d.snapshot := rfl

theorem core_endAttempt (d : Dispatcher τ) (a : Attempt) (j : Job) :
    (d.endAttempt a j).core = (d.core.endAttempt a j).core := rfl

theorem core_react (d : Dispatcher τ) (now : Instant) {o : Operation τ} (ho : o.Reacts) :
    (d.perform now o).core = (d.core.perform now o).core := by
  have hfind (ticket : Nat) : d.core.attempt? ticket = d.attempt? ticket := rfl
  cases o with
  | report ticket j =>
    simp only [perform, report, hfind]
    cases d.attempt? ticket with
    | none => rfl
    | some a =>
      by_cases hj : j.id = a.id
      · cases hf : j.finished with
        | true => simpa [hj, hf] using core_endAttempt d a j
        | false => simp [hj, core, noteLast]
      · simp [hj, core]
  | taskOver ticket panicked =>
    simp only [perform, taskOver, hfind]
    cases d.attempt? ticket with
    | none => rfl
    | some a => exact core_endAttempt d a _
  | _ => exact absurd ho not_false

theorem core_execute (h : d.core = d'.core) (hr : ∀ x ∈ steps, x.2.Reacts) :
    (d.execute steps).core = (d'.execute steps).core := by
  induction steps generalizing d d' with
  | nil => exact h
  | cons x steps ih =>
    have ho := hr x List.mem_cons_self
    refine ih ?_ fun y hy ↦ hr y (List.mem_cons_of_mem _ hy)
    rw [core_react d x.1 ho, core_react d' x.1 ho, h]

theorem execute_append (d : Dispatcher τ) (steps steps' : List (Instant × Operation τ)) :
    d.execute (steps ++ steps') = (d.execute steps).execute steps' := List.foldl_append

theorem closing_execute (d : Dispatcher τ) (hr : ∀ x ∈ steps, x.2.Reacts) :
    (d.execute steps).closing = d.closing := by
  induction steps generalizing d with
  | nil => rfl
  | cons x steps ih =>
    refine (ih _ fun y hy ↦ hr y (List.mem_cons_of_mem _ hy)).trans ?_
    obtain ⟨now, o⟩ := x
    have ho : o.Reacts := hr _ List.mem_cons_self
    cases o with
    | report ticket j =>
      change (d.report ticket j).closing = d.closing
      rcases report_cases d ticket j with he | ⟨a, -, -, -, ⟨-, he⟩ | ⟨-, he⟩⟩
      · rw [he]
      · rw [he]
        rfl
      · rw [he]
        rfl
    | taskOver ticket panicked =>
      change (d.taskOver now ticket panicked).closing = d.closing
      rcases taskOver_cases d now ticket panicked with he | ⟨a, -, error, he⟩
      · rw [he]
      · rw [he]
        rfl
    | _ => exact absurd ho not_false

def WindsDown (d d' : Dispatcher τ) : Prop :=
  ∃ steps, (∀ x ∈ steps, x.2.Reacts) ∧ d'.core = (d.execute steps).core

theorem WindsDown.of_core_eq (h : d'.core = d.core) : WindsDown d d' := ⟨[], by simp, h⟩

theorem WindsDown.trans (h : WindsDown d d') (h' : WindsDown d' e) : WindsDown d e := by
  obtain ⟨steps, hr, hc⟩ := h
  obtain ⟨steps', hr', hc'⟩ := h'
  refine ⟨steps ++ steps', ?_, ?_⟩
  · intro x hx
    rcases List.mem_append.1 hx with hx | hx
    · exact hr x hx
    · exact hr' x hx
  · rw [hc', core_execute hc hr', execute_append]

theorem saveFinal_congr (h : d.core = d'.core) : d.saveFinal = d'.saveFinal := by
  have hr : d.core.registry = d'.core.registry := by rw [h]
  have hs : d.settle = d'.settle := by
    funext j
    simp only [settle, show d.registry = d'.registry from hr]
  funext before s fs
  simp only [saveFinal, hs]

theorem core_runLoop (hc : d.closing = true) (now : Instant) : (d.runLoop now).core = d.core := by
  have hturns (n : Nat) : ∀ d : Dispatcher τ, d.closing = true →
      (takeTurns now n d).core = d.core := by
    induction n with
    | zero => exact fun _ _ ↦ rfl
    | succ n ih =>
      intro d hc
      rw [takeTurns]
      cases hl : d.loop with
      | active =>
        have ht : d.turn now = some { d with loop := .ended, stops := [] } := by
          simp [turn, hl, hc]
        rw [ht]
        exact ih _ hc
      | idle => simp only [turn, hl]
      | ended => simp only [turn, hl]
  exact hturns _ d hc

end Dispatcher

namespace Engine

open Dispatcher (Operation)

variable {σ : Type} {e e' e'' : Engine σ}

structure Closed (e : Engine σ) : Prop where
  closing : e.dispatcher.closing = true
  pruneAt : e.pruneAt = none
  checkpointAt : e.checkpointAt = none

/-- An engine that has been closed goes on until its tasks are over. -/
structure Unwinds (e e' : Engine σ) : Prop where
  closed : e'.Closed
  dispatcher : e.dispatcher.WindsDown e'.dispatcher
  files : e'.files = e.files
  store : e'.store = e.store

namespace Unwinds

theorem trans (h : Unwinds e e') (h' : Unwinds e' e'') : Unwinds e e'' :=
  ⟨h'.closed, h.dispatcher.trans h'.dispatcher, h'.files.trans h.files, h'.store.trans h.store⟩

theorem of_core_eq (h : e.Closed) (hc : e'.dispatcher.core = e.dispatcher.core)
    (hp : e'.pruneAt = e.pruneAt) (hk : e'.checkpointAt = e.checkpointAt)
    (hf : e'.files = e.files) (hs : e'.store = e.store) : Unwinds e e' := by
  refine ⟨⟨?_, hp.trans h.pruneAt, hk.trans h.checkpointAt⟩, .of_core_eq hc, hf, hs⟩
  have hcl : e'.dispatcher.core.closing = e.dispatcher.core.closing := by rw [hc]
  exact Eq.trans hcl h.closing

theorem enlist (h : e.Closed) : Unwinds e e.enlist := of_core_eq h rfl rfl rfl rfl rfl

theorem runLoop (h : e.Closed) : Unwinds e e.runLoop :=
  of_core_eq h (Dispatcher.core_runLoop h.closing e.now) rfl rfl rfl rfl

theorem runProcess (h : e.Closed) (ticket : Nat) : Unwinds e (e.runProcess ticket) := by
  unfold Engine.runProcess
  cases e.process? ticket with
  | none => exact of_core_eq h rfl rfl rfl rfl rfl
  | some p => exact of_core_eq h rfl rfl rfl rfl rfl

theorem report (h : e.Closed) (j : Job) : Unwinds e (e.report j) := by
  unfold Engine.report
  cases e.muted with
  | true => exact of_core_eq h rfl rfl rfl rfl rfl
  | false => exact of_core_eq h rfl rfl rfl rfl rfl

theorem of_execute (h : e.Closed) {steps : List (Instant × Operation Task)}
    (hr : ∀ x ∈ steps, x.2.Reacts) (processes : List Process) :
    Unwinds e { e with dispatcher := e.dispatcher.execute steps, processes } := by
  refine ⟨⟨?_, h.pruneAt, h.checkpointAt⟩, ⟨steps, hr, rfl⟩, rfl, rfl⟩
  exact (e.dispatcher.closing_execute hr).trans h.closing

theorem listen (h : e.Closed) (ticket : Nat) : Unwinds e (e.listen ticket) := by
  unfold Engine.listen
  cases e.process? ticket with
  | none => exact of_core_eq h rfl rfl rfl rfl rfl
  | some p =>
    let reports : List (Instant × Operation Task) := p.mailbox.map fun j ↦ (e.now, .report ticket j)
    have hreports : ∀ x ∈ reports, x.2.Reacts := by
      intro x hx
      obtain ⟨j, -, rfl⟩ := List.mem_map.1 hx
      trivial
    have hfold : p.mailbox.foldl (fun d j ↦ d.report ticket j) e.dispatcher =
        e.dispatcher.execute reports := by
      rw [Dispatcher.execute, List.foldl_map]
      rfl
    simp only [hfold]
    cases p.ending? with
    | none => exact of_execute h hreports _
    | some panicked =>
      have hover : (e.dispatcher.execute reports).taskOver e.now ticket panicked =
          e.dispatcher.execute (reports ++ [(e.now, .taskOver ticket panicked)]) := by
        rw [Dispatcher.execute_append]
        rfl
      simp only [hover]
      refine of_execute h (fun x hx ↦ ?_) _
      rcases List.mem_append.1 hx with hx | hx
      · exact hreports x hx
      · obtain rfl := List.mem_singleton.1 hx
        trivial

theorem take (h : e.Closed) (a : Activity) : Unwinds e (e.take a) := by
  cases a with
  | loop => exact runLoop h
  | process ticket => exact runProcess h ticket
  | listener ticket => exact listen h ticket
  | notice j => exact report h j

theorem giveTurns (h : e.Closed) (n : Nat) : Unwinds e (e.giveTurns n) := by
  induction n generalizing e with
  | zero => exact of_core_eq h rfl rfl rfl rfl rfl
  | succ n ih =>
    rw [Engine.giveTurns]
    cases e.line with
    | nil => exact of_core_eq h rfl rfl rfl rfl rfl
    | cons a line =>
      have hline : Unwinds e { e with line } := of_core_eq h rfl rfl rfl rfl rfl
      have htake := hline.trans (take hline.closed a)
      have hlist := htake.trans (enlist htake.closed)
      exact hlist.trans (ih hlist.closed)

theorem settle (h : e.Closed) : Unwinds e e.settle :=
  (enlist h).trans (giveTurns (enlist h).closed _)

theorem arrive (h : e.Closed) (time : Nat) : Unwinds e (e.arrive time) := by
  have hp : { e with time }.pruneIfDue = { e with time } := by
    simp [pruneIfDue, isDue, h.pruneAt]
  have hc : { e with time }.checkpointIfDue = { e with time } := by
    simp [checkpointIfDue, isDue, h.checkpointAt]
  have hpoll : Unwinds e { e with time }.pollIfDue := by
    unfold pollIfDue
    split
    · exact of_core_eq h rfl rfl rfl rfl rfl
    · exact of_core_eq h rfl rfl rfl rfl rfl
  rw [Engine.arrive, hp, hc]
  exact hpoll.trans (settle hpoll.closed)

theorem passTimers (h : e.Closed) (go : Engine σ → Bool) (target n : Nat) :
    Unwinds e (e.passTimers go target n) := by
  have hstay {e : Engine σ} (h : e.Closed) : Unwinds e e := of_core_eq h rfl rfl rfl rfl rfl
  induction n generalizing e with
  | zero => exact hstay h
  | succ n ih =>
    rw [Engine.passTimers]
    split
    · split
      · next time _ =>
        split
        · exact (arrive h time).trans (ih (arrive h time).closed)
        · exact hstay h
      · exact hstay h
    · exact hstay h

theorem windDown (h : e.Closed) : Unwinds e e.windDown := by
  unfold Engine.windDown
  split
  · exact of_core_eq h rfl rfl rfl rfl rfl
  · have hs := settle h
    have ht := hs.trans (passTimers hs.closed (!·.dispatcher.quiet)
      (e.time + gracePeriod - 1) gracePeriod)
    simp only
    generalize Engine.passTimers _ _ _ e.settle = w at ht
    split
    · exact ht
    · exact ht.trans (of_core_eq ht.closed rfl rfl rfl rfl rfl)

end Unwinds

theorem close_unwinds (e : Engine σ) : Unwinds
    { e with
      dispatcher := e.dispatcher.close
      pollAt := none
      pruneAt := none
      checkpointAt := none }
    e.close :=
  Unwinds.settle ⟨rfl, rfl, rfl⟩

theorem exists_unwinds_shutdown (e : Engine σ) :
    ∃ w, Unwinds { e.close with dispatcher := e.close.dispatcher.cancelAll } w ∧
      ∀ answer files,
        w.dispatcher.saveFinal e.close.dispatcher.snapshot w.store w.files = (answer, files) →
          e.shutdown = (answer, { w with files }.settle) := by
  have hc := (close_unwinds e).closed
  refine ⟨_, Unwinds.windDown ⟨hc.closing, hc.pruneAt, hc.checkpointAt⟩, ?_⟩
  intro answer files h
  unfold Engine.shutdown
  simp only [h]

/-- What an engine saves at shutdown is what its dispatcher saves after some reactions of tasks. -/
theorem shutdown_eq (e : Engine σ) : ∃ steps : List (Instant × Operation Task),
    (∀ x ∈ steps, x.2.Reacts) ∧ (e.shutdown.1, e.shutdown.2.files) =
      (e.close.dispatcher.cancelAll.execute steps).saveFinal e.close.dispatcher.snapshot e.store
        e.files := by
  obtain ⟨w, hw, he⟩ := exists_unwinds_shutdown e
  obtain ⟨steps, hr, hc⟩ := hw.dispatcher
  refine ⟨steps, hr, ?_⟩
  have hsaved : w.dispatcher.saveFinal e.close.dispatcher.snapshot w.store w.files =
      (e.close.dispatcher.cancelAll.execute steps).saveFinal e.close.dispatcher.snapshot e.store
        e.files := by
    rw [Dispatcher.saveFinal_congr hc, hw.store, hw.files, (close_unwinds e).store,
      (close_unwinds e).files]
  generalize (e.close.dispatcher.cancelAll.execute steps).saveFinal e.close.dispatcher.snapshot
    e.store e.files = saved at hsaved
  have hend : { w with files := saved.2 }.Closed :=
    ⟨hw.closed.closing, hw.closed.pruneAt, hw.closed.checkpointAt⟩
  rw [he saved.1 saved.2 hsaved, (Unwinds.settle hend).files]

/-- The state file that an engine leaves, if its dispatcher is, as far as it matters, one that a
run has led to. -/
theorem shutdown_savedAs {past : List (Dispatcher.Step Task)} {d : Dispatcher Task}
    (h : Dispatcher.Run Dispatcher.Proper past d) (hd : e.close.dispatcher.core = d.core)
    (hs : e.shutdown.1 = .ok ()) :
    ∃ steps records, (∀ x ∈ steps, x.2.Reacts) ∧ e.store.Holds e.shutdown.2.files records ∧
      (∀ id, (records.map (·.id)).count id = if d.Knows id then 1 else 0) ∧
      ∀ r ∈ records, d.SavedAs steps r := by
  obtain ⟨steps, hr, hsaved⟩ := shutdown_eq e
  have hc : e.close.dispatcher.cancelAll.core = d.cancelAll.core := by
    rw [Dispatcher.core_cancelAll, hd, Dispatcher.core_cancelAll]
  have hsnap : e.close.dispatcher.snapshot = d.snapshot := by
    rw [← Dispatcher.snapshot_core, hd, Dispatcher.snapshot_core]
  rw [hsnap, Dispatcher.saveFinal_congr (Dispatcher.core_execute hc hr), hs] at hsaved
  obtain ⟨hheld, hcount⟩ := h.wellFormed.saveFinal_holds hsaved.symm
  refine ⟨steps, _, hr, hheld, hcount, ?_⟩
  intro r hm
  obtain ⟨j, hj, rfl⟩ := List.mem_map.1 hm
  exact h.settle_savedAs hr hj

end Engine

end JobEngine
