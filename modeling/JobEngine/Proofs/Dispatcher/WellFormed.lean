import JobEngine.Proofs.Dispatcher.Registry
import JobEngine.Proofs.Dispatcher.Transitions

namespace JobEngine.Dispatcher

variable {τ : Type} {d d' : Dispatcher τ} {now : Instant} {b : Bool} {j : Job} {id : String}

/-- The submissions that are in the queue or running. -/
def tickets (d : Dispatcher τ) : List Nat :=
  d.queue.toList.map (·.ticket) ++ d.attempts.map (·.ticket)

structure WellFormed (d : Dispatcher τ) : Prop where
  queue : d.queue.Valid
  registry : d.registry.Keyed
  detached : d.detached.Keyed
  deps : d.deps.WellFormed
  tickets_nodup : d.tickets.Nodup
  tickets_lt : ∀ t ∈ d.tickets, t < d.fresh
  last_id : ∀ a ∈ d.attempts, a.last.id = a.id
  running_eq : d.running = d.attempts.length
  slots_eq : d.freeSlots + d.attempts.length = d.capacity

theorem wellFormed_create (processors : UInt64) (config : JobsConfig) (runners : Runners τ) :
    (create processors config runners).WellFormed where
  queue := Queue.valid_default
  registry := Registry.keyed_default
  detached := Registry.keyed_default
  deps := DependencyGraph.wellFormed_default
  tickets_nodup := .nil
  tickets_lt := by simp [tickets, create]
  last_id := by simp [create]
  running_eq := rfl
  slots_eq := rfl

namespace WellFormed

theorem register (h : d.WellFormed) (j : Job) :
    { d with registry := d.registry.insert j }.WellFormed :=
  { h with registry := h.registry.insert j }

theorem finalize (h : d.WellFormed) (j : Job) : (d.finalize j).WellFormed :=
  { h with
    registry := h.registry.insert j
    deps := h.deps.setParentFinished j.id j.error.isSome }

theorem forget (h : d.WellFormed) (id : String) : (d.forget id).WellFormed :=
  { h with registry := h.registry.erase id, deps := h.deps.remove id }

theorem handleFor (h : d.WellFormed) (id : String) : (d.handleFor id).2.WellFormed := by
  rcases handleFor_cases d id with ⟨n, -, he⟩ | ⟨-, he⟩
  · rw [he]
    exact h
  · rw [he]
    exact { h with tickets_lt := fun t ht ↦ Nat.lt_succ_of_lt (h.tickets_lt t ht) }

theorem setQueue (h : d.WellFormed) {queue : Queue (Pending τ)} (hv : queue.Valid)
    (hs : queue.toList.Subperm d.queue.toList) : { d with queue }.WellFormed := by
  obtain ⟨ps, hp, hps⟩ := hs
  have ht := (hp.map (·.ticket)).append_right (d.attempts.map (·.ticket))
  have hts := (hps.map (·.ticket)).append_right (d.attempts.map (·.ticket))
  exact { h with
    queue := hv
    tickets_nodup := ht.nodup_iff.1 (h.tickets_nodup.sublist hts)
    tickets_lt := fun t hm ↦ h.tickets_lt t (hts.subset (ht.mem_iff.2 hm)) }

theorem launch (h : d.WellFormed) {p : Pending τ} {queue : Queue (Pending τ)}
    (hs : 0 < d.freeSlots) (hq : d.queue.dequeue = some (p, queue)) (now : Instant) (n : Nat) :
    ({ d with freeSlots := d.freeSlots - 1, queue }.launch now p n).WellFormed := by
  obtain ⟨hv, hl⟩ := h.queue.dequeue_eq_some hq
  have hslots := h.slots_eq
  have ht : ({ d with freeSlots := d.freeSlots - 1, queue }.launch now p n).tickets.Perm
      d.tickets := by
    simp only [tickets, Dispatcher.launch, hl, List.map_append, List.map_cons, List.map_nil]
    rw [← List.append_assoc]
    exact List.perm_append_singleton _ _
  refine { h with
    queue := hv
    registry := h.registry.insert _
    tickets_nodup := ht.nodup_iff.2 h.tickets_nodup
    tickets_lt := fun t hm ↦ h.tickets_lt t (ht.mem_iff.1 hm)
    last_id := fun a ha ↦ ?_
    running_eq := ?_
    slots_eq := ?_ }
  · rcases List.mem_append.1 ha with ha | ha
    · exact h.last_id a ha
    · obtain rfl := List.mem_singleton.1 ha
      rfl
  · simp [Dispatcher.launch, h.running_eq]
  · simp only [Dispatcher.launch, List.length_append, List.length_singleton, capacity] at hslots ⊢
    omega

theorem look (h : d.WellFormed) (hl : d.look now = some (d', b)) : d'.WellFormed := by
  obtain ⟨p, queue, hs, hq, hl⟩ := look_cases hl
  have he := h.handleFor p.job.id
  rw [← handleFor_queue d p.job.id] at hq
  rw [← handleFor_freeSlots d p.job.id] at hs
  generalize (d.handleFor p.job.id).2 = e at *
  obtain ⟨hv, hlist⟩ := he.queue.dequeue_eq_some hq
  have hsub : queue.toList.Subperm e.queue.toList :=
    hlist ▸ (List.sublist_cons_self _ _).subperm
  cases hl with
  | cancelled => exact (he.setQueue hv hsub).finalize _
  | launched => exact he.launch hs hq now _
  | postponed =>
    obtain ⟨hv', hlist'⟩ := hv.enqueue p
    refine he.setQueue hv' ?_
    rw [hlist', hlist]
    exact (List.perm_append_singleton _ _).subperm
  | skipped => exact (he.setQueue hv hsub).finalize _

theorem wake (h : d.WellFormed) : { d with wakeup := true }.WellFormed := { h with }

theorem dispatchReady (h : d.WellFormed) (now : Instant) : (d.dispatchReady now).WellFormed := by
  have hl : (lookAll now d.queue.size d false).1.WellFormed :=
    lookAll_induction (fun _ _ _ h hl ↦ h.look hl) d.queue.size h false
  rcases dispatchReady_cases d now with he | he
  · rw [he]
    exact hl
  · rw [he]
    exact hl.wake

theorem attempts_filter (h : d.WellFormed) {a : Attempt} (ha : a ∈ d.attempts) :
    ∃ xs ys, d.attempts = xs ++ a :: ys ∧ d.attempts.filter (·.ticket ≠ a.ticket) = xs ++ ys := by
  have hn := (List.nodup_append.1 h.tickets_nodup).2.1
  obtain ⟨xs, ys, he⟩ := List.append_of_mem ha
  refine ⟨xs, ys, he, ?_⟩
  rw [he, List.map_append, List.map_cons, List.nodup_append, List.nodup_cons] at hn
  have hxs : ∀ x ∈ xs, x.ticket ≠ a.ticket := fun x hx ↦
    hn.2.2 _ (List.mem_map_of_mem hx) _ List.mem_cons_self
  have hys : ∀ y ∈ ys, y.ticket ≠ a.ticket := fun y hy he ↦
    hn.2.1.1 (he ▸ List.mem_map_of_mem hy)
  rw [he, List.filter_append, List.filter_cons_of_neg (by simp),
    List.filter_eq_self.2 (by simpa using hxs), List.filter_eq_self.2 (by simpa using hys)]

theorem endAttempt (h : d.WellFormed) {a : Attempt} (ha : a ∈ d.attempts) (j : Job) :
    (d.endAttempt a j).WellFormed := by
  obtain ⟨xs, ys, he, hf⟩ := h.attempts_filter ha
  have hsub : (xs ++ ys).Sublist d.attempts := by
    rw [he]
    exact (List.sublist_cons_self a ys).append_left xs
  have hts := (hsub.map (·.ticket)).append_left (d.queue.toList.map (·.ticket))
  have ha' : (d.endAttempt a j).attempts = xs ++ ys := hf
  have ht : (d.endAttempt a j).tickets =
      d.queue.toList.map (·.ticket) ++ (xs ++ ys).map (·.ticket) := by rw [← hf]; rfl
  have hlen : d.attempts.length = (xs ++ ys).length + 1 := by
    rw [he]
    simp only [List.length_append, List.length_cons]
    omega
  have hr : (d.endAttempt a j).running = d.attempts.length - 1 := by rw [← h.running_eq]; rfl
  have hs : d.freeSlots + d.attempts.length = (d.endAttempt a j).capacity := h.slots_eq
  have hfree : (d.endAttempt a j).freeSlots = d.freeSlots + 1 := rfl
  exact { h.finalize j with
    tickets_nodup := ht ▸ h.tickets_nodup.sublist hts
    tickets_lt := fun t hm ↦ h.tickets_lt t (hts.subset (ht ▸ hm))
    last_id := fun x hx ↦ h.last_id x (List.mem_of_mem_filter hx)
    running_eq := by rw [hr, ha', hlen, Nat.add_sub_cancel]
    slots_eq := by rw [hfree, ha', ← hs, hlen]; omega }

theorem eq_of_ticket_eq (h : d.WellFormed) {a a' : Attempt} (ha : a ∈ d.attempts)
    (ha' : a' ∈ d.attempts) (ht : a.ticket = a'.ticket) : a = a' :=
  List.inj_on_of_nodup_map (List.nodup_append.1 h.tickets_nodup).2.1 ha ha' ht

theorem noteLast (h : d.WellFormed) {a : Attempt} (ha : a ∈ d.attempts) (hj : j.id = a.id) :
    (d.noteLast a.ticket j).WellFormed := by
  let f : Attempt → Attempt := fun x ↦ if x.ticket = a.ticket then { x with last := j } else x
  have hf : ∀ x, (f x).ticket = x.ticket := fun x ↦ by
    simp only [f]
    split <;> rfl
  have ht : (d.noteLast a.ticket j).tickets = d.tickets := by
    change _ ++ (d.attempts.map f).map (·.ticket) = _
    rw [List.map_map]
    exact congrArg _ (List.map_congr_left fun x _ ↦ hf x)
  have hl : (d.noteLast a.ticket j).attempts.length = d.attempts.length := List.length_map _
  refine { h with
    tickets_nodup := ht ▸ h.tickets_nodup
    tickets_lt := fun t hm ↦ h.tickets_lt t (ht ▸ hm)
    last_id := fun x hx ↦ ?_
    running_eq := h.running_eq.trans hl.symm
    slots_eq := hl ▸ h.slots_eq }
  obtain ⟨y, hy, rfl⟩ := List.mem_map.1 hx
  split
  · next hya => rw [h.eq_of_ticket_eq hy ha hya, hj]
  · exact h.last_id y hy

theorem report (h : d.WellFormed) (ticket : Nat) (j : Job) : (d.report ticket j).WellFormed := by
  rcases report_cases d ticket j with he | ⟨a, ha, rfl, hj, ⟨-, he⟩ | ⟨-, he⟩⟩
  · rw [he]
    exact h
  · rw [he]
    exact h.endAttempt ha j
  · rw [he]
    exact (h.register j).noteLast ha hj

theorem taskOver (h : d.WellFormed) (now : Instant) (ticket : Nat) (panicked : Bool) :
    (d.taskOver now ticket panicked).WellFormed := by
  rcases taskOver_cases d now ticket panicked with he | ⟨a, ha, error, he⟩
  · rw [he]
    exact h
  · rw [he]
    exact h.endAttempt ha _

theorem handleStop (h : d.WellFormed) (now : Instant) (id : String) :
    (d.handleStop now id).WellFormed := by
  rcases handleStop_cases d now id with ⟨-, he⟩ | ⟨n, -, ⟨-, he⟩ | ⟨p, queue, hr, he⟩⟩
  · rw [he]
    exact h
  · rw [he]
    exact { h with }
  · obtain ⟨hv, -, as, bs, hl, -, hl'⟩ := h.queue.remove_eq_some hr
    have hsub : queue.toList.Subperm d.queue.toList := by
      rw [hl, hl']
      exact ((List.sublist_cons_self p bs).append_left as).subperm
    have hq : { d with cancelled := n :: d.cancelled, wakeup := true, queue }.WellFormed :=
      { h.setQueue hv hsub with }
    rw [he]
    exact hq.finalize _

theorem delayNext (h : d.WellFormed) : d.delayNext.2.WellFormed := by
  unfold Dispatcher.delayNext
  cases hq : d.queue.delayNext with
  | none => exact h
  | some queue =>
    obtain ⟨hv, ⟨hl, -⟩ | ⟨p, p', rest, hl, hl'⟩⟩ := h.queue.delayNext_eq_some hq
    · exact h.setQueue hv (hl ▸ .refl _)
    · refine h.setQueue hv ?_
      rw [hl, hl']
      exact (List.Perm.swap p p' rest).subperm

theorem enqueue (h : d.WellFormed) (task : τ) (j : Job) : (d.enqueue task j).WellFormed := by
  unfold Dispatcher.enqueue
  have he := h.handleFor j.id
  generalize d.handleFor j.id = x at *
  obtain ⟨n, e⟩ := x
  obtain ⟨hv, hl⟩ := he.queue.enqueue ⟨e.fresh, task, j⟩
  have ht : { e with
      registry := e.registry.insert j
      queue := e.queue.enqueue ⟨e.fresh, task, j⟩
      fresh := e.fresh + 1
      wakeup := true }.tickets.Perm (e.fresh :: e.tickets) := by
    simp only [tickets, hl, List.map_append, List.map_cons, List.map_nil, List.append_assoc]
    exact List.perm_middle
  refine { he.register j with
    queue := hv
    tickets_nodup := ht.nodup_iff.2 (List.nodup_cons.2 ⟨fun hm ↦ ?_, he.tickets_nodup⟩)
    tickets_lt := fun t hm ↦ ?_ }
  · exact Nat.lt_irrefl _ (he.tickets_lt _ hm)
  · rcases List.mem_cons.1 (ht.mem_iff.1 hm) with rfl | hm
    · exact Nat.lt_succ_self _
    · exact Nat.lt_succ_of_lt (he.tickets_lt t hm)

theorem enqueueAfter (h : d.WellFormed) (now : Instant) (task : τ) (j : Job) (parent : String) :
    (d.enqueueAfter now task j parent).2.WellFormed := by
  rcases enqueueAfter_cases h.deps now task j parent with ⟨e, he⟩ | ⟨p, -, -, he⟩
  · rw [he]
    exact h
  · rw [he]
    have hadd := h.deps.add now j.id parent
    refine { h.enqueue task j with deps := ?_ }
    split
    · exact hadd.setParentFinished _ _
    · exact hadd

theorem restart (h : d.WellFormed) (now : Instant) (j : Job) : (d.restart now j).2.WellFormed := by
  rcases restart_cases d now j with ⟨e, he⟩ | ⟨task, current, -, -, -, -, he⟩
  · rw [he]
    exact h
  · rw [he]
    have hd : { d with detached := d.detached.erase current.id }.WellFormed :=
      { h with detached := h.detached.erase _ }
    exact { hd.enqueue task _ with deps := (h.deps.reopenParent _).refreshEdges _ _ }

theorem refuse (h : d.WellFormed) (id : String) (j : Job) :
    { d with detached := d.detached.erase id, registry := d.registry.insert j }.WellFormed :=
  { h with detached := h.detached.erase id, registry := h.registry.insert j }

theorem current_id (h : d.WellFormed) (j : Job) :
    ((d.registry.get? j.id).getD j).id = j.id := by
  cases hj : d.registry.get? j.id with
  | none => rfl
  | some k => exact h.registry.id_of_get? hj

theorem get?_detached_restart (h : d.WellFormed) (now : Instant) (hi : id ≠ j.id) :
    (d.restart now j).2.detached.get? id = d.detached.get? id := by
  rcases restart_cases d now j with ⟨e, he⟩ | ⟨task, current, hc, -, hl, -, he⟩
  · rw [he]
  · have hid : current.id = j.id := by
      rw [hc]
      exact h.current_id j
    have hl' : d.handles.lookup (current.again now).id = none := hl
    rw [he]
    simp only [Dispatcher.enqueue, Dispatcher.handleFor, hl']
    rw [Registry.get?_erase, if_neg (hid ▸ hi)]

/-- What a restart and a refusal of a detached job keep is kept by resuming detached jobs: each of
them is still detached when its turn comes. -/
theorem resumeAll_induction {motive : Dispatcher τ → Prop} (wf : ∀ d, motive d → d.WellFormed)
    (restart : ∀ (d : Dispatcher τ) (j : Job), motive d → (d.detached.get? j.id).isSome = true →
      motive (d.restart now j).2)
    (refuse : ∀ (d : Dispatcher τ) (j : Job) error, motive d →
      (d.detached.get? j.id).isSome = true → motive { d with
        detached := d.detached.erase j.id
        registry := d.registry.insert (j.fail now error) })
    (jobs : List Job) (h : motive d) (hn : (jobs.map (·.id)).Nodup)
    (hj : ∀ j ∈ jobs, (d.detached.get? j.id).isSome = true) :
    motive (resumeAll now jobs d).2 := by
  induction jobs generalizing d with
  | nil => exact h
  | cons j rest ih =>
    obtain ⟨hne, hn⟩ := List.nodup_cons.1 hn
    have hd := hj j List.mem_cons_self
    have hne : ∀ j' ∈ rest, j'.id ≠ j.id := fun j' hj' he ↦ hne (List.mem_map.2 ⟨j', hj', he⟩)
    have hr := restart d j h hd
    have hkeep (id : String) (hi : id ≠ j.id) := get?_detached_restart (wf d h) now hi
    unfold Dispatcher.resumeAll
    rcases restart_cases d now j with ⟨e, he⟩ | ⟨task, current, -, -, -, -, he⟩
    · rw [he]
      refine ih (refuse d j _ h hd) hn fun j' hj' ↦ ?_
      rw [Registry.get?_erase, if_neg (hne j' hj')]
      exact hj j' (List.mem_cons_of_mem _ hj')
    · rw [he] at hr hkeep ⊢
      refine ih hr hn fun j' hj' ↦ ?_
      rw [hkeep _ (hne j' hj')]
      exact hj j' (List.mem_cons_of_mem _ hj')

theorem resume_induction {motive : Dispatcher τ → Prop} (wf : ∀ d, motive d → d.WellFormed)
    (restart : ∀ (d : Dispatcher τ) (j : Job), motive d → (d.detached.get? j.id).isSome = true →
      motive (d.restart now j).2)
    (refuse : ∀ (d : Dispatcher τ) (j : Job) error, motive d →
      (d.detached.get? j.id).isSome = true → motive { d with
        detached := d.detached.erase j.id
        registry := d.registry.insert (j.fail now error) })
    (h : motive d) : motive (d.resume now).2 := by
  have hw := (wf d h).detached
  refine resumeAll_induction wf restart refuse _ h (Registry.nodup_listed_ids hw) fun j hj ↦ ?_
  rw [hw.get?_of_mem_jobs (Registry.mem_listed.1 hj)]
  rfl

theorem resume (h : d.WellFormed) (now : Instant) : (d.resume now).2.WellFormed :=
  resume_induction (fun _ ↦ id) (fun _ j h _ ↦ h.restart now j) (fun _ _ _ h _ ↦ h.refuse _ _) h

theorem resume_keeps (h : d.WellFormed) {motive : Dispatcher τ → Prop}
    (restart : ∀ (d : Dispatcher τ) (j : Job), d.WellFormed → motive d →
      motive (d.restart now j).2)
    (refuse : ∀ (d : Dispatcher τ) (j : Job) error, d.WellFormed → motive d →
      (d.detached.get? j.id).isSome = true → motive { d with
        detached := d.detached.erase j.id
        registry := d.registry.insert (j.fail now error) })
    (hd : motive d) : motive (d.resume now).2 := by
  have hkeep : (d.resume now).2.WellFormed ∧ motive (d.resume now).2 := by
    apply resume_induction (motive := fun d ↦ d.WellFormed ∧ motive d)
    · exact fun _ h ↦ h.1
    · exact fun d j h _ ↦ ⟨h.1.restart now j, restart d j h.1 h.2⟩
    · exact fun d j error h hj ↦ ⟨h.1.refuse _ _, refuse d j error h.1 h.2 hj⟩
    · exact ⟨h, hd⟩
  exact hkeep.2

theorem resume_others (h : d.WellFormed) {motive : Dispatcher τ → Prop}
    (hid : d.detached.get? id = none)
    (restart : ∀ (d : Dispatcher τ) (j : Job), d.WellFormed → motive d → id ≠ j.id →
      motive (d.restart now j).2)
    (refuse : ∀ (d : Dispatcher τ) (j : Job) error, motive d → id ≠ j.id → motive { d with
      detached := d.detached.erase j.id
      registry := d.registry.insert (j.fail now error) })
    (hd : motive d) : motive (d.resume now).2 := by
  have hne {d : Dispatcher τ} (hid : d.detached.get? id = none) {j : Job}
      (hj : (d.detached.get? j.id).isSome = true) : id ≠ j.id := by
    rintro rfl
    rw [hid] at hj
    cases hj
  have hkeep : ((d.resume now).2.WellFormed ∧ (d.resume now).2.detached.get? id = none) ∧
      motive (d.resume now).2 := by
    apply resume_induction
      (motive := fun d ↦ (d.WellFormed ∧ d.detached.get? id = none) ∧ motive d)
    · exact fun _ h ↦ h.1.1
    · rintro d j ⟨⟨hw, hid⟩, hd⟩ hj
      have hi := hne hid hj
      refine ⟨⟨hw.restart now j, ?_⟩, restart d j hw hd hi⟩
      rw [hw.get?_detached_restart now hi, hid]
    · rintro d j error ⟨⟨hw, hid⟩, hd⟩ hj
      have hi := hne hid hj
      refine ⟨⟨hw.refuse _ _, ?_⟩, refuse d j error hd hi⟩
      rw [Registry.get?_erase, if_neg hi, hid]
    · exact ⟨⟨h, hid⟩, hd⟩
  exact hkeep.2

theorem clearIfFinished (h : d.WellFormed) (id : String) :
    (d.clearIfFinished id).2.WellFormed := by
  rcases clearIfFinished_cases d id with he | ⟨j, -, -, he⟩
  · rw [he]
    exact h
  · rw [he]
    exact h.forget id

theorem pruneBefore (h : d.WellFormed) (cutoff : Instant) :
    (d.pruneBefore cutoff).2.WellFormed :=
  pruneBefore_induction cutoff (fun _ j _ h ↦ h.forget j.id) h

theorem takeUp (h : d.WellFormed) (jobs : List Job) : (d.takeUp jobs).WellFormed :=
  takeUp_induction (fun _ j h ↦ h.register j)
    (fun _ j h ↦ { h with detached := h.detached.insert j }) jobs h

theorem perform (h : d.WellFormed) (now : Instant) (o : Operation τ) :
    (d.perform now o).WellFormed := by
  cases o with
  | load s fs => exact h.takeUp _
  | enqueue task j => exact h.enqueue task j
  | enqueueAfter task j parent => exact h.enqueueAfter now task j parent
  | dispatchReady => exact h.dispatchReady now
  | report ticket j => exact h.report ticket j
  | taskOver ticket panicked => exact h.taskOver now ticket panicked
  | handleStop id => exact h.handleStop now id
  | restart j => exact h.restart now j
  | resume => exact h.resume now
  | clearIfFinished id => exact h.clearIfFinished id
  | prune age =>
    rcases prune_cases d now age with he | ⟨cutoff, he⟩
    · rw [he]
      exact h
    · rw [he]
      exact h.pruneBefore cutoff
  | delayNext => exact h.delayNext

end WellFormed

theorem Run.wellFormed {ok : List (Step τ) → Dispatcher τ → Operation τ → Prop}
    {past : List (Step τ)} (h : Run ok past d) : d.WellFormed := by
  induction h with
  | start processors config runners => exact wellFormed_create processors config runners
  | step now o _ _ ih => exact ih.perform now o

end JobEngine.Dispatcher
