import JobEngine.Proofs.Dependency.Acceptance
import JobEngine.Proofs.Dispatcher.WellFormed

namespace JobEngine.Dispatcher

open DependencyGraph

variable {τ : Type}

inductive Request (τ : Type)
  | restart (j : Job)
  | enqueueAfter (task : τ) (j : Job) (parent : String)
  | delayNext
  | stop (id : String)

def ask (d : Dispatcher τ) (now : Instant) : Request τ → Except Error Unit × Dispatcher τ
  | .restart j => d.restart now j
  | .enqueueAfter task j parent => d.enqueueAfter now task j parent
  | .delayNext => d.delayNext
  | .stop id => d.requestStop id

/-- The record that a restart goes by. -/
def authority (d : Dispatcher τ) (j : Job) : Job := (d.registry.get? j.id).getD j

inductive Objection (d : Dispatcher τ) (now : Instant) : Request τ → Error → Prop
  | succeeded (j : Job) : (d.authority j).finished = true → (d.authority j).error = none →
    Objection d now (.restart j) (.restartRefused (d.authority j).id .succeeded)
  | capReached (j : Job) : d.config.maxRestarts ≤ (d.authority j).numRestarts →
    Objection d now (.restart j)
      (.restartRefused (d.authority j).id (.capReached d.config.maxRestarts))
  | active (j : Job) : (d.handles.lookup (d.authority j).id).isSome = true →
    Objection d now (.restart j) (.restartRefused (d.authority j).id .active)
  | noRunner (j : Job) : d.runners.get? (d.authority j).kind = none →
    Objection d now (.restart j) (.notFound "job runner" (d.authority j).kind.name)
  | notBuilt (j : Job) {r : Runner τ} {e : Error} :
    d.runners.get? (d.authority j).kind = some r → r.build ((d.authority j).again now) = .error e →
    Objection d now (.restart j) e
  | unknownParent (task : τ) (j : Job) {parent : String} : d.registry.get? parent = none →
    Objection d now (.enqueueAfter task j parent) (.notFound "job" parent)
  | duplicate (task : τ) {j : Job} {parent : String} : Link d.deps.entries j.id parent →
    Objection d now (.enqueueAfter task j parent) (.dependency .duplicate)
  | circular (task : τ) {j : Job} {parent : String} : d.deps.Closes j.id parent →
    Objection d now (.enqueueAfter task j parent) (.dependency .circular)
  | emptyQueue : d.queue.toList = [] → Objection d now .delayNext .emptyQueue
  | stopsClosed (id : String) : d.loop = .ended →
    Objection d now (.stop id) (.stopRefused .closed)
  | stopsFull (id : String) : stopCapacity ≤ d.stops.length →
    Objection d now (.stop id) (.stopRefused .full)

variable {d d' : Dispatcher τ} {now : Instant} {r : Request τ} {e : Error} {b : Bool} {j : Job}
  {parent : String}

theorem objection_of_prepareRestart (h : d.prepareRestart now (d.authority j) = .error e) :
    Objection d now (.restart j) e := by
  unfold prepareRestart at h
  cases ha : d.allowsRestart (d.authority j) with
  | error e' =>
    obtain rfl : e' = e := by simpa [ha, bind, Except.bind] using h
    unfold allowsRestart at ha
    split at ha
    · next hs =>
      cases ha
      simp only [Bool.and_eq_true, Option.isNone_iff_eq_none] at hs
      exact .succeeded j hs.1 hs.2
    · split at ha
      · next hc =>
        cases ha
        exact .capReached j hc
      · cases ha
  | ok =>
    cases hh : d.handles.lookup (d.authority j).id with
    | some n =>
      obtain rfl : .restartRefused (d.authority j).id .active = e := by
        simpa [ha, hh, bind, Except.bind, throw, throwThe, MonadExceptOf.throw] using h
      exact .active j (by rw [hh]; rfl)
    | none =>
      cases hr : d.runners.get? (d.authority j).kind with
      | none =>
        obtain rfl : .notFound "job runner" (d.authority j).kind.name = e := by
          simpa [ha, hh, hr, bind, Except.bind, throw, throwThe, MonadExceptOf.throw] using h
        exact .noRunner j hr
      | some r =>
        cases hb : r.build ((d.authority j).again now) with
        | error e' =>
          obtain rfl : e' = e := by simpa [ha, hh, hr, hb, bind, Except.bind] using h
          exact .notBuilt j hr hb
        | ok task => simp [ha, hh, hr, hb, bind, Except.bind, pure, Except.pure] at h

theorem restart_refused (h : (d.restart now j).1 = .error e) :
    (d.restart now j).2 = d ∧ Objection d now (.restart j) e := by
  unfold restart at h ⊢
  cases hp : d.prepareRestart now (d.authority j) with
  | error e' =>
    rw [authority] at hp
    simp only [hp, Except.error.injEq] at h ⊢
    subst h
    exact ⟨trivial, objection_of_prepareRestart hp⟩
  | ok x =>
    rw [authority] at hp
    simp [hp] at h

theorem enqueueAfter_refused (hd : d.deps.WellFormed) {task : τ}
    (h : (d.enqueueAfter now task j parent).1 = .error e) :
    (d.enqueueAfter now task j parent).2 = d ∧
      Objection d now (.enqueueAfter task j parent) e := by
  unfold enqueueAfter at h ⊢
  cases hp : d.registry.get? parent with
  | none =>
    simp only [hp, Except.error.injEq] at h ⊢
    subst h
    exact ⟨trivial, .unknownParent task j hp⟩
  | some p =>
    by_cases hl : Link d.deps.entries j.id parent
    · simp only [hp, add_of_link now hl, Except.error.injEq] at h ⊢
      subst h
      exact ⟨trivial, .duplicate task hl⟩
    · by_cases hc : d.deps.Closes j.id parent
      · simp only [hp, add_of_closes hd now hl hc, Except.error.injEq] at h ⊢
        subst h
        exact ⟨trivial, .circular task hc⟩
      · simp [hp, add_of_not_closes hd now hl hc] at h

theorem delayNext_refused (hd : d.queue.Valid) (h : d.delayNext.1 = .error e) :
    d.delayNext.2 = d ∧ Objection d now .delayNext e := by
  unfold delayNext at h ⊢
  cases hq : d.queue.delayNext with
  | none =>
    simp only [hq, Except.error.injEq] at h ⊢
    subst h
    exact ⟨trivial, .emptyQueue (hd.delayNext_eq_none_iff.1 hq)⟩
  | some queue => simp [hq] at h

theorem requestStop_refused {id : String} (h : (d.requestStop id).1 = .error e) :
    (d.requestStop id).2 = d ∧ Objection d now (.stop id) e := by
  unfold requestStop at h ⊢
  split at h
  · next hl =>
    cases h
    exact ⟨if_pos hl ▸ rfl, .stopsClosed id hl⟩
  · next hl =>
    split at h
    · next hs =>
      cases h
      refine ⟨?_, .stopsFull id hs⟩
      rw [if_neg hl, if_pos hs]
    · cases h

/-- The states that a dispatcher can get into, whatever its callers, its loop and its surroundings
do and in whatever order. -/
inductive Reachable : Dispatcher τ → Prop
  | create (processors : UInt64) (config : JobsConfig) (runners : Runners τ) :
    Reachable (create processors config runners)
  | perform {d : Dispatcher τ} (now : Instant) (o : Operation τ) :
    Reachable d → Reachable (d.perform now o)
  | ask {d : Dispatcher τ} (now : Instant) (r : Request τ) :
    Reachable d → Reachable (d.ask now r).2
  | clearDetached {d : Dispatcher τ} (id : String) :
    Reachable d → Reachable (d.clearDetached id).2
  | start {d : Dispatcher τ} (now : Instant) : Reachable d → Reachable (d.start now)
  | turn {d d' : Dispatcher τ} (now : Instant) :
    Reachable d → d.turn now = some d' → Reachable d'
  | look {d d' : Dispatcher τ} {b : Bool} (now : Instant) :
    Reachable d → d.look now = some (d', b) → Reachable d'
  | wake {d : Dispatcher τ} : Reachable d → Reachable { d with wakeup := true }
  | close {d : Dispatcher τ} : Reachable d → Reachable d.close
  | cancelAll {d : Dispatcher τ} : Reachable d → Reachable d.cancelAll
  | collect {d : Dispatcher τ} : Reachable d → Reachable { d with launches := [], notices := [] }

theorem Run.reachable {ok : List (Step τ) → Dispatcher τ → Operation τ → Prop}
    {past : List (Step τ)} (h : Run ok past d) : Reachable d := by
  induction h with
  | start processors config runners => exact .create processors config runners
  | step now o _ _ ih => exact ih.perform now o

namespace WellFormed

theorem requestStop (h : d.WellFormed) (id : String) : (d.requestStop id).2.WellFormed := by
  unfold Dispatcher.requestStop
  split
  · exact h
  · split
    · exact h
    · exact { h with }

theorem ask (h : d.WellFormed) (now : Instant) (r : Request τ) : (d.ask now r).2.WellFormed := by
  cases r with
  | restart j => exact h.restart now j
  | enqueueAfter task j parent => exact h.enqueueAfter now task j parent
  | delayNext => exact h.delayNext
  | stop id => exact h.requestStop id

theorem clearDetached (h : d.WellFormed) (id : String) : (d.clearDetached id).2.WellFormed :=
  { h with detached := h.detached.erase id }

theorem start (h : d.WellFormed) (now : Instant) : (d.start now).WellFormed := by
  unfold Dispatcher.start
  split
  · have ha : { d with loop := .active }.WellFormed := { h with }
    exact ha.dispatchReady now
  · exact h

theorem turn (h : d.WellFormed) (ht : d.turn now = some d') : d'.WellFormed := by
  unfold Dispatcher.turn at ht
  split at ht
  · split at ht
    · cases ht
      exact { h with }
    · split at ht
      · next id stops _ =>
        have hs : { d with stops }.WellFormed := { h with }
        cases ht
        exact (hs.handleStop now id).dispatchReady now
      · split at ht
        · have hw : { d with wakeup := false }.WellFormed := { h with }
          cases ht
          exact hw.dispatchReady now
        · cases ht
  · cases ht

end WellFormed

theorem Reachable.wellFormed (h : Reachable d) : d.WellFormed := by
  induction h with
  | create processors config runners => exact wellFormed_create processors config runners
  | perform now o _ ih => exact ih.perform now o
  | ask now r _ ih => exact ih.ask now r
  | clearDetached id _ ih => exact ih.clearDetached id
  | start now _ ih => exact ih.start now
  | turn now _ ht ih => exact ih.turn ht
  | look now _ hl ih => exact ih.look hl
  | wake _ ih => exact ih.wake
  | close _ ih => exact { ih with }
  | cancelAll _ ih => exact { ih with }
  | collect _ ih => exact { ih with }

/-- A request that is answered with an error changes nothing at all: registry, detached jobs, queue,
edges, handles, slots and pending stop requests are as they were. The error names what was wrong. -/
theorem refused_unchanged (h : Reachable d) (he : (d.ask now r).1 = .error e) :
    (d.ask now r).2 = d ∧ Objection d now r e := by
  have hw := h.wellFormed
  cases r with
  | restart j => exact restart_refused he
  | enqueueAfter task j parent => exact enqueueAfter_refused hw.deps he
  | delayNext => exact delayNext_refused hw.queue he
  | stop id => exact requestStop_refused he

theorem refused_unchanged_sample :
    (sample.2.ask sampleInstant (.enqueueAfter () (sampleJob "first") "second")).1 =
        .error (.dependency .circular) ∧
      (sample.2.ask sampleInstant (.enqueueAfter () (sampleJob "first") "second")).2 =
        sample.2 := by
  have he : (sample.2.ask sampleInstant (.enqueueAfter () (sampleJob "first") "second")).1 =
      .error (.dependency .circular) := by decide +kernel
  exact ⟨he, (refused_unchanged sample_run.reachable he).1⟩

end JobEngine.Dispatcher
