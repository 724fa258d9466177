import JobEngine.Proofs.Dependency.Edges
import JobEngine.Proofs.Dispatcher.Run
import JobEngine.Proofs.Queue.Arena

namespace JobEngine.Dispatcher

variable {τ : Type} {d d' : Dispatcher τ} {now : Instant} {b : Bool} {j : Job} {id : String}

theorem handleFor_cases (d : Dispatcher τ) (id : String) :
    (∃ h, d.handles.lookup id = some h ∧ d.handleFor id = (h, d)) ∨
      d.handles.lookup id = none ∧ d.handleFor id =
        (d.fresh, { d with handles := (id, d.fresh) :: d.handles, fresh := d.fresh + 1 }) := by
  unfold handleFor
  cases d.handles.lookup id with
  | none => exact .inr ⟨rfl, rfl⟩
  | some h => exact .inl ⟨h, rfl, rfl⟩

@[simp]
theorem handleFor_queue (d : Dispatcher τ) (id : String) : (d.handleFor id).2.queue = d.queue := by
  rcases handleFor_cases d id with ⟨n, -, he⟩ | ⟨-, he⟩ <;> rw [he]

@[simp]
theorem handleFor_freeSlots (d : Dispatcher τ) (id : String) :
    (d.handleFor id).2.freeSlots = d.freeSlots := by
  rcases handleFor_cases d id with ⟨n, -, he⟩ | ⟨-, he⟩ <;> rw [he]

/-- What becomes of the first entry of the queue, with `queue` behind it. -/
inductive Looked (now : Instant) (p : Pending τ) (queue : Queue (Pending τ)) (handle : Nat)
    (d : Dispatcher τ) : Dispatcher τ → Bool → Prop
  | cancelled (h : d.isCancelled handle = true) :
    Looked now p queue handle d
      ({ d with queue }.finalize (p.job.fail now Text.cancelledBeforeStart)) true
  | launched (h : d.readiness p.job.id = .ready) (hc : d.isCancelled handle = false) :
    Looked now p queue handle d
      ({ d with freeSlots := d.freeSlots - 1, queue }.launch now p handle) false
  | postponed (h : d.readiness p.job.id = .waiting) (hc : d.isCancelled handle = false) :
    Looked now p queue handle d { d with queue := queue.enqueue p } false
  | skipped (h : d.readiness p.job.id = .parentFailed) (hc : d.isCancelled handle = false) :
    Looked now p queue handle d
      ({ d with queue }.finalize (p.job.fail now Text.parentJobFailed)) true

/-- A look takes a slot and an entry; the slot is given back unless the job is launched. -/
theorem look_cases (h : d.look now = some (d', b)) :
    ∃ p queue, 0 < d.freeSlots ∧ d.queue.dequeue = some (p, queue) ∧
      Looked now p queue (d.handleFor p.job.id).1 (d.handleFor p.job.id).2 d' b := by
  unfold look at h
  split at h
  · cases h
  · next hs =>
    have hs : 0 < d.freeSlots := Nat.pos_of_ne_zero hs
    cases hq : d.queue.dequeue with
    | none => simp [hq] at h
    | some x =>
      obtain ⟨p, queue⟩ := x
      refine ⟨p, queue, hs, rfl, ?_⟩
      have he : { d with freeSlots := d.freeSlots - 1, queue }.handleFor p.job.id =
          ((d.handleFor p.job.id).1,
            { (d.handleFor p.job.id).2 with freeSlots := d.freeSlots - 1, queue }) := by
        unfold handleFor
        cases d.handles.lookup p.job.id <;> rfl
      have hf := handleFor_freeSlots d p.job.id
      have hback : d.freeSlots - 1 + 1 = (d.handleFor p.job.id).2.freeSlots := by omega
      simp only [hq, he, giveBack, finalize, dropHandle, hback] at h
      generalize (d.handleFor p.job.id).2 = e at *
      split at h
      · next hc =>
        cases h
        exact .cancelled hc
      · next hc =>
        have hc : e.isCancelled _ = false := Bool.eq_false_iff.2 hc
        split at h
        · next hr =>
          cases h
          rw [← hf]
          exact .launched hr hc
        · next hr =>
          cases h
          exact .postponed hr hc
        · next hr =>
          cases h
          exact .skipped hr hc

theorem look_eq_none (h : d.look now = none) : d.freeSlots = 0 ∨ d.queue.dequeue = none := by
  unfold look at h
  split at h
  · next hs => exact .inl hs
  · cases hq : d.queue.dequeue with
    | none => exact .inr rfl
    | some x =>
      simp only [hq] at h
      split at h
      · cases h
      · split at h <;> cases h

theorem lookAll_induction {motive : Dispatcher τ → Prop}
    (step : ∀ d d' b, motive d → d.look now = some (d', b) → motive d') (n : Nat) (h : motive d)
    (settled : Bool) : motive (lookAll now n d settled).1 := by
  induction n generalizing d settled with
  | zero => exact h
  | succ n ih =>
    unfold lookAll
    cases hl : d.look now with
    | none => exact h
    | some x => exact ih (step d x.1 x.2 h hl) _

theorem dispatchReady_cases (d : Dispatcher τ) (now : Instant) :
    d.dispatchReady now = (lookAll now d.queue.size d false).1 ∨
      d.dispatchReady now = { (lookAll now d.queue.size d false).1 with wakeup := true } := by
  unfold dispatchReady
  by_cases h : (lookAll now d.queue.size d false).2 = true
  · exact .inr (by simp [h])
  · exact .inl (by simp [h])

theorem dispatchReady_eq (d : Dispatcher τ) (now : Instant) :
    ∃ wakeup, d.dispatchReady now = { (lookAll now d.queue.size d false).1 with wakeup } := by
  rcases dispatchReady_cases d now with he | he
  · exact ⟨_, he⟩
  · exact ⟨true, he⟩

theorem attempt?_eq_some {ticket : Nat} {a : Attempt} (h : d.attempt? ticket = some a) :
    a ∈ d.attempts ∧ a.ticket = ticket :=
  ⟨List.mem_of_find?_eq_some h, by simpa using List.find?_some h⟩

theorem report_cases (d : Dispatcher τ) (ticket : Nat) (j : Job) :
    d.report ticket j = d ∨ ∃ a ∈ d.attempts, a.ticket = ticket ∧ j.id = a.id ∧
      (j.finished = true ∧ d.report ticket j = d.endAttempt a j ∨
        j.finished = false ∧
          d.report ticket j = { d with registry := d.registry.insert j }.noteLast ticket j) := by
  unfold report
  cases h : d.attempt? ticket with
  | none => exact .inl rfl
  | some a =>
    obtain ⟨ha, ht⟩ := attempt?_eq_some h
    by_cases hj : j.id = a.id
    · refine .inr ⟨a, ha, ht, hj, ?_⟩
      cases hf : j.finished with
      | true => exact .inl ⟨rfl, by simp [hj]⟩
      | false => exact .inr ⟨rfl, by simp [hj]⟩
    · exact .inl (by simp [hj])

theorem taskOver_cases (d : Dispatcher τ) (now : Instant) (ticket : Nat) (panicked : Bool) :
    d.taskOver now ticket panicked = d ∨ ∃ a ∈ d.attempts, ∃ error,
      d.taskOver now ticket panicked = d.endAttempt a (a.last.fail now error) := by
  unfold taskOver
  cases h : d.attempt? ticket with
  | none => exact .inl rfl
  | some a => exact .inr ⟨a, (attempt?_eq_some h).1, _, rfl⟩

theorem handleStop_cases (d : Dispatcher τ) (now : Instant) (id : String) :
    d.handles.lookup id = none ∧ d.handleStop now id = d ∨
      ∃ h, d.handles.lookup id = some h ∧
        (d.queue.remove (·.job.id = id) = none ∧
            d.handleStop now id = { d with cancelled := h :: d.cancelled, wakeup := true } ∨
          ∃ p queue, d.queue.remove (·.job.id = id) = some (p, queue) ∧
            d.handleStop now id =
              { d with cancelled := h :: d.cancelled, wakeup := true, queue }.finalize
                (p.job.fail now Text.cancelledBeforeStart)) := by
  unfold handleStop
  cases d.handles.lookup id with
  | none => exact .inl ⟨rfl, rfl⟩
  | some h =>
    refine .inr ⟨h, rfl, ?_⟩
    cases hr : d.queue.remove (·.job.id = id) with
    | none => exact .inl ⟨rfl, by simp [hr]⟩
    | some x => exact .inr ⟨x.1, x.2, rfl, by simp [hr]⟩

theorem enqueueAfter_cases (hd : d.deps.WellFormed) (now : Instant) (task : τ) (j : Job)
    (parent : String) :
    (∃ e, d.enqueueAfter now task j parent = (.error e, d)) ∨
      ∃ p, d.registry.get? parent = some p ∧
        (d.deps.add now j.id parent).1 = .ok () ∧
        d.enqueueAfter now task j parent = (.ok (), { d.enqueue task j with
          deps := if p.finished then
              (d.deps.add now j.id parent).2.setParentFinished parent p.error.isSome
            else (d.deps.add now j.id parent).2 }) := by
  unfold enqueueAfter
  cases hp : d.registry.get? parent with
  | none => exact .inl ⟨_, rfl⟩
  | some p =>
    rcases DependencyGraph.add_cases hd now j.id parent with ⟨c, he⟩ | ⟨he, -⟩
    · exact .inl ⟨.dependency c, by simp only [he]⟩
    · refine .inr ⟨p, rfl, by rw [he], ?_⟩
      simp only [he, enqueue, handleFor]
      cases d.handles.lookup j.id <;> rfl

theorem allowsRestart_eq_ok_iff : d.allowsRestart j = .ok () ↔
    ¬ (j.finished = true ∧ j.error = none) ∧ j.numRestarts < d.config.maxRestarts := by
  rw [allowsRestart, ← UInt32.not_le]
  by_cases hs : (j.finished && j.error.isNone) = true
  · rw [if_pos hs]
    have hs : j.finished = true ∧ j.error = none := by simpa using hs
    simp [hs]
  · rw [if_neg hs]
    have hs : ¬ (j.finished = true ∧ j.error = none) := by simpa using hs
    by_cases hc : d.config.maxRestarts ≤ j.numRestarts
    · simp [hc]
    · simp [hc, hs]

theorem toNat_again {cap : UInt32} (h : j.numRestarts < cap) (now : Instant) :
    (j.again now).numRestarts.toNat = j.numRestarts.toNat + 1 := by
  have hlt := UInt32.lt_iff_toNat_lt.1 h
  have hmax := cap.toNat_lt
  rw [Job.again, UInt32.toNat_add, UInt32.toNat_one, Nat.mod_eq_of_lt (by omega)]

theorem prepareRestart_eq_ok {again : Job} {task : τ}
    (h : d.prepareRestart now j = .ok (again, task)) :
    d.allowsRestart j = .ok () ∧ d.handles.lookup j.id = none ∧ again = j.again now ∧
      ∃ r, d.runners.get? j.kind = some r ∧ r.build again = .ok task := by
  unfold prepareRestart at h
  cases ha : d.allowsRestart j with
  | error e => simp [ha, bind, Except.bind] at h
  | ok =>
    cases hh : d.handles.lookup j.id with
    | some x => simp [ha, hh, bind, Except.bind, throw, throwThe, MonadExceptOf.throw] at h
    | none =>
      cases hr : d.runners.get? j.kind with
      | none =>
        simp [ha, hh, hr, bind, Except.bind, throw, throwThe, MonadExceptOf.throw] at h
      | some r =>
        cases hb : r.build (j.again now) with
        | error e => simp [ha, hh, hr, hb, bind, Except.bind] at h
        | ok t =>
          obtain ⟨rfl, rfl⟩ : j.again now = again ∧ t = task := by
            simpa [ha, hh, hr, hb, bind, Except.bind, pure, Except.pure] using h
          exact ⟨rfl, rfl, rfl, r, rfl, hb⟩

/-- A job runs again only if it has no handle, and not after a success. -/
theorem restart_cases (d : Dispatcher τ) (now : Instant) (j : Job) :
    (∃ e, d.restart now j = (.error e, d)) ∨
      ∃ task current, current = (d.registry.get? j.id).getD j ∧
        d.allowsRestart current = .ok () ∧ d.handles.lookup current.id = none ∧
        (∃ r, d.runners.get? current.kind = some r ∧ r.build (current.again now) = .ok task) ∧
        d.restart now j = (.ok (), {
          { d with detached := d.detached.erase current.id }.enqueue task (current.again now) with
            deps := (d.deps.reopenParent current.id).refreshEdges current.id d.parentStatus }) := by
  unfold restart
  generalize (d.registry.get? j.id).getD j = current
  cases hp : d.prepareRestart now current with
  | error e => exact .inl ⟨e, by simp only [hp]⟩
  | ok x =>
    obtain ⟨again, task⟩ := x
    obtain ⟨ha, hh, rfl, hr⟩ := prepareRestart_eq_ok hp
    refine .inr ⟨task, current, rfl, ha, hh, hr, ?_⟩
    have hl : d.handles.lookup (current.again now).id = none := hh
    simp only [hp, enqueue, handleFor, hl]

theorem prune_cases (d : Dispatcher τ) (now : Instant) (age : Int) :
    d.perform now (.prune age) = d ∨
      ∃ cutoff, d.perform now (.prune age) = (d.pruneBefore cutoff).2 := by
  simp only [perform, prune, pruneOlder]
  cases cutoff? now (age * nanosPerSecond) with
  | none => exact .inl rfl
  | some cutoff => exact .inr ⟨cutoff, rfl⟩

theorem clearIfFinished_cases (d : Dispatcher τ) (id : String) :
    (d.clearIfFinished id).2 = d ∨ ∃ j, d.registry.get? id = some j ∧ j.finished = true ∧
      (d.clearIfFinished id).2 = d.forget id := by
  unfold clearIfFinished
  cases d.registry.get? id with
  | none => exact .inl rfl
  | some j =>
    cases hf : j.finished with
    | false => exact .inl (by simp [hf])
    | true => exact .inr ⟨j, rfl, hf, by simp [hf, forget]⟩

theorem delayNext_eq (d : Dispatcher τ) : ∃ queue, d.delayNext.2 = { d with queue } := by
  unfold delayNext
  cases d.queue.delayNext with
  | none => exact ⟨d.queue, rfl⟩
  | some queue => exact ⟨queue, rfl⟩

theorem takeUp_induction {motive : Dispatcher τ → Prop}
    (register : ∀ (d : Dispatcher τ) (j : Job),
      motive d → motive { d with registry := d.registry.insert j })
    (detach : ∀ (d : Dispatcher τ) (j : Job),
      motive d → motive { d with detached := d.detached.insert j })
    (jobs : List Job) (h : motive d) : motive (d.takeUp jobs) := by
  unfold takeUp
  induction jobs generalizing d with
  | nil => exact h
  | cons j jobs ih =>
    rw [List.foldl_cons]
    split
    · exact ih (register d j h)
    · exact ih (detach d j h)

theorem pruneBefore_induction {motive : Dispatcher τ → Prop} (cutoff : Instant)
    (forget : ∀ e, ∀ j ∈ d.expired cutoff, motive e → motive (e.forget j.id)) (h : motive d) :
    motive (d.pruneBefore cutoff).2 := by
  unfold pruneBefore
  have hfold (jobs : List Job) (hj : ∀ j ∈ jobs, j ∈ d.expired cutoff) (e : Dispatcher τ)
      (he : motive e) : motive (jobs.foldl (fun e j ↦ e.forget j.id) e) := by
    induction jobs generalizing e with
    | nil => exact he
    | cons j jobs ih =>
      have hf := forget e j (hj j List.mem_cons_self) he
      exact ih (fun j' hj' ↦ hj j' (List.mem_cons_of_mem _ hj')) _ hf
  exact hfold _ (fun _ hj ↦ hj) d h

end JobEngine.Dispatcher
