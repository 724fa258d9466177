import JobEngine.Proofs.Dispatcher.WellFormed

namespace JobEngine.Dispatcher

variable {τ : Type} {d d' d'' : Dispatcher τ} {now : Instant} {b : Bool} {j : Job}
  {a : Attempt} {o : Operation τ} {ls ls' : List (Launch τ)}

structure SameSlots (d d' : Dispatcher τ) : Prop where
  config : d'.config = d.config
  launches : d'.launches = d.launches
  tickets : d'.attempts.map (·.ticket) = d.attempts.map (·.ticket)
  freeSlots : d'.freeSlots = d.freeSlots
  running : d'.running = d.running

namespace SameSlots

theorem refl (d : Dispatcher τ) : SameSlots d d := ⟨rfl, rfl, rfl, rfl, rfl⟩

theorem trans (h : SameSlots d d') (h' : SameSlots d' d'') : SameSlots d d'' where
  config := h'.config.trans h.config
  launches := h'.launches.trans h.launches
  tickets := h'.tickets.trans h.tickets
  freeSlots := h'.freeSlots.trans h.freeSlots
  running := h'.running.trans h.running

theorem handleFor (d : Dispatcher τ) (id : String) : SameSlots d (d.handleFor id).2 := by
  rcases handleFor_cases d id with ⟨n, -, he⟩ | ⟨-, he⟩
  · rw [he]
    exact refl d
  · rw [he]
    exact ⟨rfl, rfl, rfl, rfl, rfl⟩

theorem enqueue (d : Dispatcher τ) (task : τ) (j : Job) : SameSlots d (d.enqueue task j) := by
  have h := handleFor d j.id
  exact ⟨h.config, h.launches, h.tickets, h.freeSlots, h.running⟩

theorem enqueueAfter (hw : d.WellFormed) (now : Instant) (task : τ) (j : Job) (parent : String) :
    SameSlots d (d.enqueueAfter now task j parent).2 := by
  rcases enqueueAfter_cases hw.deps now task j parent with ⟨e, he⟩ | ⟨p, -, -, he⟩
  · rw [he]
    exact refl d
  · have h := enqueue d task j
    rw [he]
    exact ⟨h.config, h.launches, h.tickets, h.freeSlots, h.running⟩

theorem restart (d : Dispatcher τ) (now : Instant) (j : Job) :
    SameSlots d (d.restart now j).2 := by
  rcases restart_cases d now j with ⟨e, he⟩ | ⟨task, current, -, -, -, -, he⟩
  · rw [he]
    exact refl d
  · have h := enqueue { d with detached := d.detached.erase current.id } task (current.again now)
    rw [he]
    exact ⟨h.config, h.launches, h.tickets, h.freeSlots, h.running⟩

theorem resume (hw : d.WellFormed) (now : Instant) : SameSlots d (d.resume now).2 := by
  apply hw.resume_keeps (motive := SameSlots d)
  · intro e j _ h
    exact h.trans (restart e now j)
  · intro e j error _ h _
    exact h.trans ⟨rfl, rfl, rfl, rfl, rfl⟩
  · exact refl d

theorem takeUp (jobs : List Job) (d : Dispatcher τ) : SameSlots d (d.takeUp jobs) := by
  apply takeUp_induction (motive := SameSlots d)
  · intro e j h
    exact h.trans ⟨rfl, rfl, rfl, rfl, rfl⟩
  · intro e j h
    exact h.trans ⟨rfl, rfl, rfl, rfl, rfl⟩
  · exact refl d

theorem clearIfFinished (d : Dispatcher τ) (id : String) :
    SameSlots d (d.clearIfFinished id).2 := by
  rcases clearIfFinished_cases d id with he | ⟨j, -, -, he⟩
  · rw [he]
    exact refl d
  · rw [he]
    exact ⟨rfl, rfl, rfl, rfl, rfl⟩

theorem pruneBefore (d : Dispatcher τ) (cutoff : Instant) :
    SameSlots d (d.pruneBefore cutoff).2 := by
  apply pruneBefore_induction (motive := SameSlots d)
  · intro e j _ h
    exact h.trans ⟨rfl, rfl, rfl, rfl, rfl⟩
  · exact refl d

theorem handleStop (d : Dispatcher τ) (now : Instant) (id : String) :
    SameSlots d (d.handleStop now id) := by
  rcases handleStop_cases d now id with ⟨-, he⟩ | ⟨n, -, ⟨-, he⟩ | ⟨p, queue, -, he⟩⟩
  · rw [he]
    exact refl d
  · rw [he]
    exact ⟨rfl, rfl, rfl, rfl, rfl⟩
  · rw [he]
    exact ⟨rfl, rfl, rfl, rfl, rfl⟩

theorem delayNext (d : Dispatcher τ) : SameSlots d d.delayNext.2 := by
  obtain ⟨queue, he⟩ := delayNext_eq d
  rw [he]
  exact ⟨rfl, rfl, rfl, rfl, rfl⟩

theorem noteLast (d : Dispatcher τ) (ticket : Nat) (j : Job) :
    SameSlots d (d.noteLast ticket j) := by
  refine ⟨rfl, rfl, ?_, rfl, rfl⟩
  simp only [Dispatcher.noteLast, List.map_map]
  apply List.map_congr_left
  intro x _
  simp only [Function.comp_apply]
  split <;> rfl

end SameSlots

/-- An operation is the end of an attempt: it reports a finished state, or its task is over. -/
inductive Ends (a : Attempt) : Operation τ → Prop
  | reported {j : Job} (hj : j.id = a.id) (hf : j.finished = true) : Ends a (.report a.ticket j)
  | silent (panicked : Bool) : Ends a (.taskOver a.ticket panicked)

theorem SameSlots.perform (hw : d.WellFormed) (now : Instant) (hp : o ≠ .dispatchReady)
    (he : ∀ a ∈ d.attempts, ¬ Ends a o) : SameSlots d (d.perform now o) := by
  cases o with
  | load s fs => exact takeUp _ d
  | enqueue task j => exact enqueue d task j
  | enqueueAfter task j parent => exact enqueueAfter hw now task j parent
  | dispatchReady => exact absurd rfl hp
  | report ticket j =>
    change SameSlots d (d.report ticket j)
    rcases report_cases d ticket j with h | ⟨a, ha, rfl, hj, ⟨hf, -⟩ | ⟨-, h⟩⟩
    · rw [h]
      exact refl d
    · exact absurd (.reported hj hf) (he a ha)
    · have hr : SameSlots d { d with registry := d.registry.insert j } := ⟨rfl, rfl, rfl, rfl, rfl⟩
      rw [h]
      exact hr.trans (noteLast _ a.ticket j)
  | taskOver ticket panicked =>
    change SameSlots d (d.taskOver now ticket panicked)
    unfold Dispatcher.taskOver
    cases h : d.attempt? ticket with
    | none => exact refl d
    | some a =>
      obtain ⟨ha, rfl⟩ := attempt?_eq_some h
      exact absurd (.silent panicked) (he a ha)
  | handleStop id => exact handleStop d now id
  | restart j => exact restart d now j
  | resume => exact resume hw now
  | clearIfFinished id => exact clearIfFinished d id
  | prune age =>
    rcases prune_cases d now age with h | ⟨cutoff, h⟩
    · rw [h]
      exact refl d
    · rw [h]
      exact pruneBefore d cutoff
  | delayNext => exact delayNext d

structure Launched (d d' : Dispatcher τ) (ls : List (Launch τ)) : Prop where
  config : d'.config = d.config
  launches : d'.launches = d.launches ++ ls
  attempts : d'.attempts = d.attempts ++ ls.map (·.attempt)
  freeSlots : d'.freeSlots + ls.length = d.freeSlots

theorem Launched.refl (d : Dispatcher τ) : Launched d d [] := ⟨rfl, by simp, by simp, rfl⟩

theorem Launched.trans (h : Launched d d' ls) (h' : Launched d' d'' ls') :
    Launched d d'' (ls ++ ls') where
  config := h'.config.trans h.config
  launches := by rw [h'.launches, h.launches, List.append_assoc]
  attempts := by rw [h'.attempts, h.attempts, List.map_append, List.append_assoc]
  freeSlots := by
    have h₁ := h.freeSlots
    have h₂ := h'.freeSlots
    rw [List.length_append]
    omega

theorem Launched.handleFor (d : Dispatcher τ) (id : String) :
    Launched d (d.handleFor id).2 [] := by
  rcases handleFor_cases d id with ⟨n, -, he⟩ | ⟨-, he⟩
  · rw [he]
    exact refl d
  · rw [he]
    exact ⟨rfl, by simp, by simp, rfl⟩

theorem look_launched (h : d.look now = some (d', b)) : ∃ ls, Launched d d' ls := by
  obtain ⟨p, queue, hs, -, hl⟩ := look_cases h
  have he := Launched.handleFor d p.job.id
  rw [← handleFor_freeSlots d p.job.id] at hs
  generalize (d.handleFor p.job.id).2 = e at *
  cases hl with
  | cancelled =>
    exact ⟨[], he.trans ⟨rfl, by simp [finalize, dropHandle], by simp [finalize, dropHandle], rfl⟩⟩
  | launched =>
    let l : Launch τ := ⟨⟨p.ticket, p.job.id, (d.handleFor p.job.id).1, p.job.touch now⟩, p.task⟩
    have hfree : e.freeSlots - 1 + 1 = e.freeSlots := Nat.sub_add_cancel hs
    exact ⟨[l], he.trans ⟨rfl, rfl, rfl, hfree⟩⟩
  | postponed => exact ⟨[], he.trans ⟨rfl, by simp, by simp, rfl⟩⟩
  | skipped =>
    exact ⟨[], he.trans ⟨rfl, by simp [finalize, dropHandle], by simp [finalize, dropHandle], rfl⟩⟩

theorem dispatchReady_launched (d : Dispatcher τ) (now : Instant) :
    ∃ ls, Launched d (d.dispatchReady now) ls := by
  have hl : ∃ ls, Launched d (lookAll now d.queue.size d false).1 ls := by
    apply lookAll_induction (motive := fun e ↦ ∃ ls, Launched d e ls)
    · rintro e e' b ⟨ls, h⟩ he
      obtain ⟨ls', h'⟩ := look_launched he
      exact ⟨ls ++ ls', h.trans h'⟩
    · exact ⟨[], .refl d⟩
  obtain ⟨ls, h⟩ := hl
  rcases dispatchReady_cases d now with he | he
  · rw [he]
    exact ⟨ls, h⟩
  · rw [he]
    exact ⟨ls, h.config, h.launches, h.attempts, h.freeSlots⟩

/-- An attempt has ended: its last record is a finished one, and its slot is free. -/
structure Released (d d' : Dispatcher τ) (a : Attempt) : Prop where
  config : d'.config = d.config
  launches : d'.launches = d.launches
  attempts : ∃ xs ys, d.attempts = xs ++ a :: ys ∧ d'.attempts = xs ++ ys
  freeSlots : d'.freeSlots = d.freeSlots + 1
  running : d'.running + 1 = d.running
  record : ∃ j, d'.registry.get? a.id = some j ∧ j.finished = true

theorem WellFormed.attempt?_eq (h : d.WellFormed) (ha : a ∈ d.attempts) :
    d.attempt? a.ticket = some a := by
  cases hf : d.attempt? a.ticket with
  | none =>
    have hn := List.find?_eq_none.1 hf a ha
    simp at hn
  | some a' =>
    obtain ⟨ha', ht⟩ := attempt?_eq_some hf
    rw [h.eq_of_ticket_eq ha' ha ht]

theorem WellFormed.endAttempt_released (h : d.WellFormed) (ha : a ∈ d.attempts) (hj : j.id = a.id)
    (hf : j.finished = true) : Released d (d.endAttempt a j) a := by
  obtain ⟨xs, ys, he, hfilter⟩ := h.attempts_filter ha
  have hpos : 0 < d.running := by
    rw [h.running_eq]
    exact List.length_pos_of_mem ha
  refine ⟨rfl, rfl, ⟨xs, ys, he, hfilter⟩, rfl, Nat.sub_add_cancel hpos, j, ?_, hf⟩
  rw [← hj]
  exact Registry.get?_insert_self d.registry j

theorem Ends.released (h : d.WellFormed) (ha : a ∈ d.attempts) (ho : Ends a o) (now : Instant) :
    Released d (d.perform now o) a := by
  have hfind := h.attempt?_eq ha
  cases ho with
  | @reported j hj hf =>
    have he : d.report a.ticket j = d.endAttempt a j := by simp [Dispatcher.report, hfind, hj, hf]
    rw [perform, he]
    exact h.endAttempt_released ha hj hf
  | silent panicked =>
    simp only [perform, Dispatcher.taskOver, hfind]
    exact h.endAttempt_released ha (h.last_id a ha) rfl

theorem WellFormed.perform_config (h : d.WellFormed) (now : Instant) (o : Operation τ) :
    (d.perform now o).config = d.config := by
  by_cases hp : o = .dispatchReady
  · subst hp
    obtain ⟨ls, hl⟩ := dispatchReady_launched d now
    exact hl.config
  · by_cases he : ∃ a ∈ d.attempts, Ends a o
    · obtain ⟨a, ha, he⟩ := he
      exact (he.released h ha now).config
    · have hs := SameSlots.perform h now hp fun a ha hae ↦ he ⟨a, ha, hae⟩
      exact hs.config

theorem WellFormed.launches_eq (h : d.WellFormed) (now : Instant) (hp : o ≠ .dispatchReady) :
    (d.perform now o).launches = d.launches := by
  by_cases he : ∃ a ∈ d.attempts, Ends a o
  · obtain ⟨a, ha, he⟩ := he
    exact (he.released h ha now).launches
  · have hs := SameSlots.perform h now hp fun a ha hae ↦ he ⟨a, ha, hae⟩
    exact hs.launches

def execute (d : Dispatcher τ) (steps : List (Instant × Operation τ)) : Dispatcher τ :=
  steps.foldl (fun d s ↦ d.perform s.1 s.2) d

theorem WellFormed.execute (h : d.WellFormed) (steps : List (Instant × Operation τ)) :
    (d.execute steps).WellFormed ∧ (d.execute steps).config = d.config := by
  induction steps generalizing d with
  | nil => exact ⟨h, rfl⟩
  | cons s steps ih =>
    obtain ⟨hw, hc⟩ := ih (h.perform s.1 s.2)
    exact ⟨hw, hc.trans (h.perform_config s.1 s.2)⟩

/-- Whatever is asked of a dispatcher, no more attempts run than its configuration allows, and the
others of its slots are free. A pass takes as many slots as it launches attempts, the end of an
attempt gives its slot back, and nothing else changes what slots are used for. -/
theorem slots_balance (processors : UInt64) (config : JobsConfig) (runners : Runners τ)
    (steps : List (Instant × Operation τ)) :
    let d := (create processors config runners).execute steps
    let limit := max (config.normalize processors).maxConcurrent.toNat 1
    d.attempts.length ≤ limit ∧ d.stats.running = d.attempts.length ∧
    d.freeSlots + d.stats.running = limit ∧
    (∀ now, ∃ ls, Launched d (d.dispatchReady now) ls) ∧
    (∀ now a o, a ∈ d.attempts → Ends a o → Released d (d.perform now o) a) ∧
    ∀ now o, o ≠ .dispatchReady → (∀ a ∈ d.attempts, ¬ Ends a o) →
      SameSlots d (d.perform now o) := by
  intro d limit
  obtain ⟨hw, hc⟩ := (wellFormed_create processors config runners).execute steps
  have hcap : d.capacity = limit := congrArg (fun c ↦ max c.maxConcurrent.toNat 1) hc
  have hslots : d.freeSlots + d.attempts.length = limit := by
    rw [← hcap]
    exact hw.slots_eq
  have hrun : d.stats.running = d.attempts.length := hw.running_eq
  refine ⟨by omega, hrun, by omega, dispatchReady_launched d, ?_, ?_⟩
  · intro now a o ha ho
    exact ho.released hw ha now
  · intro now o hp he
    exact SameSlots.perform hw now hp he

end JobEngine.Dispatcher
