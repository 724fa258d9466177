import JobEngine.Proofs.Dispatcher.Handles
import JobEngine.Proofs.Dispatcher.Refusal

namespace JobEngine.Dispatcher

variable {τ : Type} {d d' e : Dispatcher τ} {now : Instant} {b : Bool} {j : Job} {a : Attempt}
  {o : Operation τ} {ticket : ℕ}

inductive Action (τ : Type)
  | perform (now : Instant) (o : Operation τ)
  | ask (now : Instant) (r : Request τ)
  | clearDetached (id : String)
  | start (now : Instant)
  | turn (now : Instant)
  | look (now : Instant)
  | wake
  | close
  | cancelAll
  | collect

def act (d : Dispatcher τ) : Action τ → Dispatcher τ
  | .perform now o => d.perform now o
  | .ask now r => (d.ask now r).2
  | .clearDetached id => (d.clearDetached id).2
  | .start now => d.start now
  | .turn now => (d.turn now).getD d
  | .look now => ((d.look now).map (·.1)).getD d
  | .wake => { d with wakeup := true }
  | .close => d.close
  | .cancelAll => d.cancelAll
  | .collect => { d with launches := [], notices := [] }

inductive Signal
  | update (j : Job)
  | over (now : Instant) (panicked : Bool)

def Signal.record (a : Attempt) : Signal → Job
  | .update j => j
  | .over now panicked =>
    a.last.fail now (if panicked then Text.taskPanicked else Text.noCompletionReported)

def Operation.signal? (now : Instant) (ticket : ℕ) : Operation τ → Option Signal
  | .report t j => if t = ticket then some (.update j) else none
  | .taskOver t panicked => if t = ticket then some (.over now panicked) else none
  | _ => none

def Action.signal? (ticket : ℕ) : Action τ → Option Signal
  | .perform now o => o.signal? now ticket
  | _ => none

theorem WellFormed.act (h : d.WellFormed) (x : Action τ) : (d.act x).WellFormed := by
  cases x with
  | perform now o => exact h.perform now o
  | ask now r => exact h.ask now r
  | clearDetached id => exact h.clearDetached id
  | start now => exact h.start now
  | turn now =>
    change ((d.turn now).getD d).WellFormed
    cases ht : d.turn now with
    | none => exact h
    | some d' => exact h.turn ht
  | look now =>
    change (((d.look now).map (·.1)).getD d).WellFormed
    cases hl : d.look now with
    | none => exact h
    | some x => exact WellFormed.look h hl
  | wake => exact h.wake
  | close => exact { h with }
  | cancelAll => exact { h with }
  | collect => exact { h with }

/-- What an action keeps if it is no signal: all that operations without a signal and looks keep,
and that depends on nothing but queue, attempts and used tickets. -/
theorem WellFormed.act_keeps (hw : d.WellFormed) {motive : Dispatcher τ → Prop}
    (same : ∀ d d', motive d → d'.queue = d.queue → d'.attempts = d.attempts →
      d'.fresh = d.fresh → motive d')
    (perform : ∀ d now o, d.WellFormed → motive d → Operation.signal? now ticket o = none →
      motive (d.perform now o))
    (look : ∀ d now d' b, d.WellFormed → motive d → d.look now = some (d', b) → motive d')
    {x : Action τ} (hx : x.signal? ticket = none) (h : motive d) : motive (d.act x) := by
  cases x with
  | perform now o => exact perform d now o hw h hx
  | ask now r =>
    cases r with
    | restart j => exact perform d now (.restart j) hw h rfl
    | enqueueAfter task j parent => exact perform d now (.enqueueAfter task j parent) hw h rfl
    | delayNext => exact perform d now .delayNext hw h rfl
    | stop id =>
      change motive (d.requestStop id).2
      unfold Dispatcher.requestStop
      split
      · exact h
      · split
        · exact h
        · exact same d _ h rfl rfl rfl
  | clearDetached id => exact same d _ h rfl rfl rfl
  | start now =>
    change motive (d.start now)
    unfold Dispatcher.start
    split
    · have ha : { d with loop := .active }.WellFormed := { hw with }
      exact perform _ now .dispatchReady ha (same d _ h rfl rfl rfl) rfl
    · exact h
  | turn now =>
    change motive ((d.turn now).getD d)
    unfold Dispatcher.turn
    split
    · split
      · exact same d _ h rfl rfl rfl
      · split
        · next id stops _ =>
          have hs : { d with stops }.WellFormed := { hw with }
          have hstop := perform _ now (.handleStop id) hs (same d _ h rfl rfl rfl) rfl
          exact perform _ now .dispatchReady (hs.handleStop now id) hstop rfl
        · split
          · have ha : { d with wakeup := false }.WellFormed := { hw with }
            exact perform _ now .dispatchReady ha (same d _ h rfl rfl rfl) rfl
          · exact h
    · exact h
  | look now =>
    change motive (((d.look now).map (·.1)).getD d)
    cases hl : d.look now with
    | none => exact h
    | some x => exact look d now x.1 x.2 hw h hl
  | wake => exact same d _ h rfl rfl rfl
  | close => exact same d _ h rfl rfl rfl
  | cancelAll => exact same d _ h rfl rfl rfl
  | collect => exact same d _ h rfl rfl rfl

theorem WellFormed.attempts_restart (hw : d.WellFormed) (now : Instant) (j : Job) :
    (d.restart now j).2.attempts = d.attempts := by
  rcases restart_cases d now j with ⟨e, he⟩ | ⟨task, current, -, -, -, -, he⟩
  · rw [he]
  · rw [he]
    exact (enqueue_cases (d := { d with detached := d.detached.erase current.id }) hw.queue
      task _).2.1

theorem WellFormed.attempts_perform (hw : d.WellFormed) (now : Instant) (hp : o ≠ .dispatchReady)
    (hr : ∀ t j, o ≠ .report t j) (ht : ∀ t b, o ≠ .taskOver t b) :
    (d.perform now o).attempts = d.attempts := by
  cases o with
  | dispatchReady => exact absurd rfl hp
  | report t j => exact absurd rfl (hr t j)
  | taskOver t b => exact absurd rfl (ht t b)
  | load s fs =>
    obtain ⟨registry, detached, he⟩ := takeUp_eq (s.loadOrEmpty fs) d
    change (d.takeUp (s.loadOrEmpty fs)).attempts = d.attempts
    rw [he]
  | enqueue task j => exact (enqueue_cases hw.queue task j).2.1
  | enqueueAfter task j parent =>
    change (d.enqueueAfter now task j parent).2.attempts = d.attempts
    rcases enqueueAfter_cases hw.deps now task j parent with ⟨e, he⟩ | ⟨p, -, -, he⟩
    · rw [he]
    · rw [he]
      exact (enqueue_cases hw.queue task j).2.1
  | handleStop id =>
    change (d.handleStop now id).attempts = d.attempts
    rcases handleStop_cases d now id with ⟨-, he⟩ | ⟨n, -, ⟨-, he⟩ | ⟨p, queue, -, he⟩⟩
    · rw [he]
    · rw [he]
    · rw [he]
      rfl
  | restart j => exact hw.attempts_restart now j
  | resume =>
    apply hw.resume_keeps (motive := fun e ↦ e.attempts = d.attempts)
    · exact fun e j he h ↦ (he.attempts_restart now j).trans h
    · exact fun _ _ _ _ h _ ↦ h
    · rfl
  | clearIfFinished id =>
    change (d.clearIfFinished id).2.attempts = d.attempts
    rcases clearIfFinished_cases d id with he | ⟨j, -, -, he⟩
    · rw [he]
    · rw [he]
      rfl
  | prune age =>
    rcases prune_cases d now age with he | ⟨cutoff, he⟩
    · rw [he]
    · rw [he]
      apply pruneBefore_induction (motive := fun e ↦ e.attempts = d.attempts) cutoff
      · exact fun _ _ _ h ↦ h
      · rfl
  | delayNext =>
    change d.delayNext.2.attempts = d.attempts
    obtain ⟨queue, he⟩ := delayNext_eq d
    rw [he]

theorem WellFormed.attempt_stays_perform (hw : d.WellFormed) (ha : a ∈ d.attempts)
    (ho : o.signal? now a.ticket = none) : a ∈ (d.perform now o).attempts := by
  have hend {x : Attempt} (hx : x.ticket ≠ a.ticket) (j : Job) : a ∈ (d.endAttempt x j).attempts :=
    List.mem_filter.2 ⟨ha, by simpa using Ne.symm hx⟩
  cases o with
  | dispatchReady =>
    obtain ⟨ls, hl⟩ := dispatchReady_launched d now
    change a ∈ (d.dispatchReady now).attempts
    rw [hl.attempts]
    exact List.mem_append_left _ ha
  | report t j =>
    have hne : t ≠ a.ticket := by simpa [Operation.signal?] using ho
    change a ∈ (d.report t j).attempts
    rcases report_cases d t j with he | ⟨x, -, rfl, -, ⟨-, he⟩ | ⟨-, he⟩⟩
    · rwa [he]
    · rw [he]
      exact hend hne j
    · rw [he]
      exact List.mem_map.2 ⟨a, ha, if_neg (Ne.symm hne)⟩
  | taskOver t panicked =>
    have hne : t ≠ a.ticket := by simpa [Operation.signal?] using ho
    change a ∈ (d.taskOver now t panicked).attempts
    unfold Dispatcher.taskOver
    cases hf : d.attempt? t with
    | none => exact ha
    | some x =>
      obtain ⟨-, rfl⟩ := attempt?_eq_some hf
      exact hend hne _
  | _ => rwa [hw.attempts_perform now (by simp) (by simp) (by simp)]

theorem WellFormed.attempt_stays (hw : d.WellFormed) (ha : a ∈ d.attempts) {x : Action τ}
    (hx : x.signal? a.ticket = none) : a ∈ (d.act x).attempts := by
  refine hw.act_keeps (motive := fun e ↦ a ∈ e.attempts) ?_ ?_ ?_ hx ha
  · intro e e' h _ he _
    rwa [he]
  · exact fun e now o he h ho ↦ he.attempt_stays_perform h ho
  · intro e now e' b _ h hl
    obtain ⟨ls, hl⟩ := look_launched hl
    rw [hl.attempts]
    exact List.mem_append_left _ h

theorem Spent.perform (h : Spent ticket d) (hw : d.WellFormed) (now : Instant) (o : Operation τ) :
    Spent ticket (d.perform now o) := by
  by_cases ho : ∃ s fs, o = .load s fs
  · obtain ⟨s, fs, rfl⟩ := ho
    obtain ⟨registry, detached, he⟩ := takeUp_eq (s.loadOrEmpty fs) d
    change Spent ticket (d.takeUp (s.loadOrEmpty fs))
    rw [he]
    exact ⟨h.lt, h.ended⟩
  · obtain ⟨events, ht, -⟩ := hw.unfolds now fun s fs he ↦ ho ⟨s, fs, he⟩
    exact ht.keeps (fun _ _ _ _ h heff ↦ h.effect heff) h

theorem Spent.act (h : Spent ticket d) (hw : d.WellFormed) (x : Action τ) :
    Spent ticket (d.act x) := by
  cases hx : x.signal? ticket with
  | none =>
    refine hw.act_keeps (motive := Spent ticket) ?_ ?_ ?_ hx h
    · intro e e' h hq ha hf
      refine ⟨hf ▸ h.lt, ?_⟩
      rw [Dispatcher.tickets, hq, ha]
      exact h.ended
    · exact fun e now o he h _ ↦ h.perform he now o
    · intro e now e' b he h hl
      obtain ⟨ev, heff, -⟩ := look_effect he hl
      exact h.effect heff
  | some v =>
    cases x with
    | perform now o => exact h.perform hw now o
    | _ => cases hx

theorem Spent.attempt? (h : Spent ticket d) : d.attempt? ticket = none := by
  refine Option.eq_none_iff_forall_ne_some.2 fun a hf ↦ ?_
  obtain ⟨ha, rfl⟩ := attempt?_eq_some hf
  exact h.ended (List.mem_append_right _ (List.mem_map_of_mem ha))

def actAll (d : Dispatcher τ) (xs : List (Action τ)) : Dispatcher τ := xs.foldl act d

/-- What the signals of an attempt do while actions happen. One counts if the attempt runs and the
record is one of its job: the record goes into the registry in the place of the last one, and a
finished one ends the attempt, whose slot comes free. Other signals change nothing, and all other
actions leave the attempt as it is. -/
inductive Log (ticket : ℕ) : Dispatcher τ → List (Action τ) → List Job → Prop
  | nil (d : Dispatcher τ) : Log ticket d [] []
  | other {d : Dispatcher τ} {x : Action τ} {xs : List (Action τ)} {js : List Job}
    (hx : x.signal? ticket = none) (ha : (d.act x).attempt? ticket = d.attempt? ticket)
    (h : Log ticket (d.act x) xs js) : Log ticket d (x :: xs) js
  | ignored {d : Dispatcher τ} {x : Action τ} {v : Signal} {xs : List (Action τ)} {js : List Job}
    (hx : x.signal? ticket = some v)
    (hv : ∀ a, d.attempt? ticket = some a → (v.record a).id ≠ a.id)
    (he : d.act x = d) (h : Log ticket d xs js) : Log ticket d (x :: xs) js
  | recorded {d : Dispatcher τ} {a : Attempt} {x : Action τ} {v : Signal} {xs : List (Action τ)}
    {js : List Job} (hx : x.signal? ticket = some v) (ha : d.attempt? ticket = some a)
    (hid : (v.record a).id = a.id) (hf : (v.record a).finished = false)
    (he : d.act x =
      { d with registry := d.registry.insert (v.record a) }.noteLast ticket (v.record a))
    (h : Log ticket (d.act x) xs js) : Log ticket d (x :: xs) (v.record a :: js)
  | ended {d : Dispatcher τ} {a : Attempt} {x : Action τ} {v : Signal} {xs : List (Action τ)}
    {js : List Job} (hx : x.signal? ticket = some v) (ha : d.attempt? ticket = some a)
    (hid : (v.record a).id = a.id) (hf : (v.record a).finished = true)
    (hr : (d.act x).registry = d.registry.insert (v.record a)) (hs : Released d (d.act x) a)
    (h : Log ticket (d.act x) xs js) : Log ticket d (x :: xs) (v.record a :: js)

/-- The states that count among those a task reports: the unfinished ones of its own job, up to the
first finished one. -/
def accepted (id : String) (us : List Job) : List Job :=
  (us.filter (·.id = id)).takeWhile (!·.finished)

/-- The record with which an attempt ends that reports some states: the first finished one of its
own job, or else the last one that counts, as failed when the task is over. -/
def terminal? (a : Attempt) (us : List Job) (fate : Option (Instant × Bool)) : Option Job :=
  ((us.filter (·.id = a.id)).find? (·.finished)).or <| fate.map fun (now, panicked) ↦
    (Signal.over now panicked).record { a with last := (accepted a.id us).getLastD a.last }

def signals (us : List Job) (fate : Option (Instant × Bool)) : List Signal :=
  us.map .update ++ (fate.map fun (now, panicked) ↦ .over now panicked).toList

variable {us : List Job} {fate : Option (Instant × Bool)} {xs : List (Action τ)} {u : Job}

theorem accepted_cons_foreign (h : u.id ≠ a.id) : accepted a.id (u :: us) = accepted a.id us := by
  rw [accepted, List.filter_cons_of_neg (by simpa using h), accepted]

theorem accepted_cons_finished (h : u.id = a.id) (hf : u.finished = true) :
    accepted a.id (u :: us) = [] := by
  rw [accepted, List.filter_cons_of_pos (by simpa using h),
    List.takeWhile_cons_of_neg (by simp [hf])]

theorem accepted_cons_own (h : u.id = a.id) (hf : u.finished = false) :
    accepted a.id (u :: us) = u :: accepted a.id us := by
  rw [accepted, List.filter_cons_of_pos (by simpa using h),
    List.takeWhile_cons_of_pos (by simp [hf]), accepted]

theorem terminal?_cons_foreign (h : u.id ≠ a.id) :
    terminal? a (u :: us) fate = terminal? a us fate := by
  rw [terminal?, accepted_cons_foreign h, List.filter_cons_of_neg (by simpa using h), terminal?]

theorem terminal?_cons_finished (h : u.id = a.id) (hf : u.finished = true) :
    terminal? a (u :: us) fate = some u := by
  rw [terminal?, List.filter_cons_of_pos (by simpa using h), List.find?_cons_of_pos hf,
    Option.some_or]

theorem terminal?_cons_own (h : u.id = a.id) (hf : u.finished = false) :
    terminal? a (u :: us) fate = terminal? { a with last := u } us fate := by
  rw [terminal?, accepted_cons_own h hf, List.filter_cons_of_pos (by simpa using h),
    List.find?_cons_of_neg (by simp [hf]), List.getLastD_cons, terminal?]

theorem isSome_terminal? : (terminal? a us fate).isSome = true ↔
    fate.isSome = true ∨ ∃ u ∈ us, u.id = a.id ∧ u.finished = true := by
  simp only [terminal?, Option.isSome_or, Option.isSome_map, Bool.or_eq_true, List.find?_isSome,
    List.mem_filter, decide_eq_true_eq, and_assoc]
  exact or_comm

theorem Action.of_signal? {x : Action τ} {v : Signal} (h : x.signal? ticket = some v) :
    (∃ now j, x = .perform now (.report ticket j) ∧ v = .update j) ∨
      ∃ now panicked, x = .perform now (.taskOver ticket panicked) ∧ v = .over now panicked := by
  cases x with
  | perform now o =>
    cases o with
    | report t j =>
      obtain ⟨rfl, hv⟩ := Option.ite_none_right_eq_some.1 h
      exact .inl ⟨now, j, rfl, (Option.some.inj hv).symm⟩
    | taskOver t panicked =>
      obtain ⟨rfl, hv⟩ := Option.ite_none_right_eq_some.1 h
      exact .inr ⟨now, panicked, rfl, (Option.some.inj hv).symm⟩
    | _ => cases h
  | _ => cases h

section Signals

variable {x : Action τ} {v : Signal}

theorem act_of_attempt?_eq_none (h : d.attempt? ticket = none) (hx : x.signal? ticket = some v) :
    d.act x = d := by
  rcases Action.of_signal? hx with ⟨now, j, rfl, -⟩ | ⟨now, panicked, rfl, -⟩
  · simp only [act, perform, Dispatcher.report, h]
  · simp only [act, perform, Dispatcher.taskOver, h]

/-- The supervisor of a running attempt makes no difference between what the task reports and the
end of the task, but for the record. -/
theorem WellFormed.act_signal (hw : d.WellFormed) (ha : a ∈ d.attempts)
    (hx : x.signal? a.ticket = some v) : d.act x =
      if (v.record a).id ≠ a.id then d
      else if (v.record a).finished then d.endAttempt a (v.record a)
      else
        { d with registry := d.registry.insert (v.record a) }.noteLast a.ticket (v.record a) := by
  have hfind := hw.attempt?_eq ha
  rcases Action.of_signal? hx with ⟨now, j, rfl, rfl⟩ | ⟨now, panicked, rfl, rfl⟩
  · simp only [Dispatcher.act, Dispatcher.perform, Dispatcher.report, hfind]
    rfl
  · have hid : (Signal.record a (.over now panicked)).id = a.id := hw.last_id a ha
    have hf : (Signal.record a (.over now panicked)).finished = true := rfl
    rw [if_neg (not_not.2 hid), if_pos hf]
    simp only [Dispatcher.act, Dispatcher.perform, Dispatcher.taskOver, hfind, Signal.record]

end Signals

theorem log_spent (h : Spent ticket d) (hw : d.WellFormed) (xs : List (Action τ)) :
    Log ticket d xs [] ∧ (d.actAll xs).attempt? ticket = none := by
  induction xs generalizing d with
  | nil => exact ⟨.nil d, h.attempt?⟩
  | cons x xs ih =>
    have h' := h.act hw x
    obtain ⟨hlog, hend⟩ := ih h' (hw.act x)
    refine ⟨?_, hend⟩
    cases hx : x.signal? ticket with
    | none => exact .other hx (h'.attempt?.trans h.attempt?.symm) hlog
    | some v =>
      have he := act_of_attempt?_eq_none h.attempt? hx
      rw [he] at hlog
      refine .ignored hx (fun a ha ↦ ?_) he hlog
      rw [h.attempt?] at ha
      cases ha

theorem WellFormed.spent_endAttempt (hw : d.WellFormed) (ha : a ∈ d.attempts) (j : Job) :
    Spent a.ticket (d.endAttempt a j) := by
  have hmem : a.ticket ∈ d.attempts.map (·.ticket) := List.mem_map_of_mem ha
  refine ⟨hw.tickets_lt _ (List.mem_append_right _ hmem), fun ht ↦ ?_⟩
  rcases List.mem_append.1 ht with hq | ht
  · exact (List.nodup_append.1 hw.tickets_nodup).2.2 _ hq _ hmem rfl
  · obtain ⟨x, hx, he⟩ := List.mem_map.1 ht
    simpa [he] using (List.mem_filter.1 hx).2

theorem log_ending (hw : d.WellFormed) (ha : a ∈ d.attempts) {x : Action τ} {v : Signal}
    (hx : x.signal? a.ticket = some v) (hid : (v.record a).id = a.id)
    (hf : (v.record a).finished = true) (xs : List (Action τ)) :
    Log a.ticket d (x :: xs) [v.record a] ∧ (d.actAll (x :: xs)).attempt? a.ticket = none := by
  have he : d.act x = d.endAttempt a (v.record a) := by
    rw [hw.act_signal ha hx, if_neg (not_not.2 hid), if_pos hf]
  have hspent := hw.spent_endAttempt ha (v.record a)
  obtain ⟨hlog, hend⟩ := log_spent (he ▸ hspent) (hw.act x) xs
  refine ⟨.ended hx (hw.attempt?_eq ha) hid hf ?_ ?_ hlog, hend⟩
  · rw [he]
    rfl
  · rw [he]
    exact hw.endAttempt_released ha hid hf

theorem log_running (hw : d.WellFormed) (ha : a ∈ d.attempts)
    (hs : xs.filterMap (·.signal? a.ticket) = signals us fate) :
    Log a.ticket d xs (accepted a.id us ++ (terminal? a us fate).toList) ∧
      (d.actAll xs).attempt? a.ticket = if (terminal? a us fate).isSome then none
        else some { a with last := (accepted a.id us).getLastD a.last } := by
  -- a recorded state becomes the last one of the attempt, so the attempt changes along the actions
  induction xs generalizing d us a with
  | nil =>
    cases us with
    | cons => cases hs
    | nil =>
      cases fate with
      | some => cases hs
      | none => exact ⟨.nil d, hw.attempt?_eq ha⟩
  | cons x xs ih =>
    cases hx : x.signal? a.ticket with
    | none =>
      rw [List.filterMap_cons_none hx] at hs
      have ha' := hw.attempt_stays ha hx
      obtain ⟨hlog, hend⟩ := ih (hw.act x) ha' hs
      exact ⟨.other hx (((hw.act x).attempt?_eq ha').trans (hw.attempt?_eq ha).symm) hlog, hend⟩
    | some v =>
      rw [List.filterMap_cons_some hx] at hs
      have he := hw.act_signal ha hx
      cases us with
      | nil =>
        cases fate with
        | none => cases hs
        | some f =>
          obtain ⟨rfl, -⟩ := List.cons.inj hs
          exact log_ending hw ha hx (hw.last_id a ha) rfl xs
      | cons u us =>
        obtain ⟨rfl, hs'⟩ := List.cons.inj hs
        by_cases hid : u.id = a.id
        · cases hf : u.finished with
          | true =>
            rw [accepted_cons_finished hid hf, terminal?_cons_finished hid hf]
            exact log_ending hw ha hx hid hf xs
          | false =>
            have hnf : ¬u.finished = true := by simp [hf]
            replace he := he.trans ((if_neg (not_not.2 hid)).trans (if_neg hnf))
            have ha' : { a with last := u } ∈ (d.act x).attempts := by
              rw [he]
              exact List.mem_map.2 ⟨a, ha, if_pos rfl⟩
            obtain ⟨hlog, hend⟩ := ih (hw.act x) ha' hs'
            rw [accepted_cons_own hid hf, terminal?_cons_own hid hf, List.getLastD_cons]
            exact ⟨.recorded hx (hw.attempt?_eq ha) hid hf he hlog, hend⟩
        · replace he := he.trans (if_pos hid)
          obtain ⟨hlog, hend⟩ := ih hw ha hs'
          rw [accepted_cons_foreign hid, terminal?_cons_foreign hid]
          refine ⟨.ignored hx (fun a' ha' ↦ ?_) he hlog, ?_⟩
          · obtain rfl := Option.some.inj ((hw.attempt?_eq ha).symm.trans ha')
            exact hid
          · rwa [actAll, List.foldl_cons, he]

structure Begun (now : Instant) (d e : Dispatcher τ) (l : Launch τ) (p : Pending τ) : Prop where
  first : d.queue.toList.head? = some p
  task : l.task = p.task
  ticket : l.attempt.ticket = p.ticket
  id : l.attempt.id = p.job.id
  last : l.attempt.last = p.job.touch now
  registry : e.registry = d.registry.insert (p.job.touch now)
  attempts : e.attempts = d.attempts ++ [l.attempt]
  running : e.running = d.running + 1
  freeSlots : e.freeSlots + 1 = d.freeSlots

theorem WellFormed.begun (hw : d.WellFormed) {l : Launch τ} (hl : d.look now = some (e, b))
    (hn : e.launches = d.launches ++ [l]) : ∃ p, Begun now d e l p := by
  obtain ⟨p, queue, hs, hq, hl⟩ := look_cases hl
  obtain ⟨-, hlist⟩ := hw.queue.dequeue_eq_some hq
  have hfor : ∃ handles fresh, (d.handleFor p.job.id).2 = { d with handles, fresh } := by
    obtain ⟨handles, fresh, he, -⟩ := handleFor_eq d p.job.id
    exact ⟨handles, fresh, he⟩
  obtain ⟨handles, fresh, he⟩ := hfor
  rw [he] at hl
  have hne : d.launches ≠ d.launches ++ [l] := by simp
  cases hl with
  | cancelled => exact absurd hn hne
  | postponed => exact absurd hn hne
  | skipped => exact absurd hn hne
  | launched =>
    obtain rfl := List.singleton_inj.1 (List.append_cancel_left hn)
    refine ⟨p, by rw [hlist]; rfl, rfl, rfl, rfl, rfl, rfl, rfl, rfl, Nat.sub_add_cancel hs⟩

/-- Once a look has launched an attempt, its task reports states and may then be over, and anything
may happen in between. The unfinished states of its own job replace the record in the order in which
they were reported, up to the first finished one. With that one the attempt ends, or else with the
last record as failed when the task is over. This happens once, and the slot comes free with it.
Nothing else that the task reports changes anything. -/
theorem attempt_supervised {l : Launch τ} (h : Reachable d) (hl : d.look now = some (e, b))
    (hn : e.launches = d.launches ++ [l]) (xs : List (Action τ)) (us : List Job)
    (fate : Option (Instant × Bool))
    (hs : xs.filterMap (·.signal? l.attempt.ticket) = signals us fate) :
    (∃ p, Begun now d e l p) ∧
    ((terminal? l.attempt us fate).isSome = true ↔
      fate.isSome = true ∨ ∃ u ∈ us, u.id = l.attempt.id ∧ u.finished = true) ∧
    Log l.attempt.ticket e xs
      (accepted l.attempt.id us ++ (terminal? l.attempt us fate).toList) ∧
    (e.actAll xs).attempt? l.attempt.ticket = if (terminal? l.attempt us fate).isSome then none
      else some { l.attempt with last := (accepted l.attempt.id us).getLastD l.attempt.last } := by
  have hw := h.wellFormed
  obtain ⟨p, hp⟩ := hw.begun hl hn
  have ha : l.attempt ∈ e.attempts := by
    rw [hp.attempts]
    exact List.mem_append_right _ List.mem_cons_self
  exact ⟨⟨p, hp⟩, isSome_terminal?, log_running (hw.look hl) ha hs⟩

def sampleLaunch : Launch Unit := ⟨⟨3, "second", 2, (sampleJob "second").touch sampleInstant⟩, ()⟩

theorem attempt_supervised_sample :
    ∃ e, sample.2.look sampleInstant = some (e, false) ∧
      e.launches = sample.2.launches ++ [sampleLaunch] ∧
      Log 3 e
        [.perform sampleInstant (.report 3 ((sampleJob "first").finish sampleInstant)), .wake,
          .perform sampleInstant (.report 3 (sampleJob "second")),
          .perform sampleInstant (.taskOver 3 true)]
        [sampleJob "second", (sampleJob "second").fail sampleInstant Text.taskPanicked] := by
  have hlook : (sample.2.look sampleInstant).map (fun x ↦ (x.2, x.1.launches)) =
      some (false, sample.2.launches ++ [sampleLaunch]) := by decide +kernel
  obtain ⟨⟨e, b⟩, hl, hx⟩ := Option.map_eq_some_iff.1 hlook
  obtain ⟨rfl, hn⟩ := Prod.mk.inj hx
  have hlog := attempt_supervised sample_run.reachable hl hn
    [.perform sampleInstant (.report 3 ((sampleJob "first").finish sampleInstant)), .wake,
      .perform sampleInstant (.report 3 (sampleJob "second")),
      .perform sampleInstant (.taskOver 3 true)]
    [(sampleJob "first").finish sampleInstant, sampleJob "second"] (some (sampleInstant, true)) rfl
  exact ⟨e, hl, hn, hlog.2.2.1⟩

end JobEngine.Dispatcher
