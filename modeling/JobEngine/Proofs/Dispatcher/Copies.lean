import JobEngine.Proofs.Dispatcher.WellFormed
import JobEngine.Proofs.Dispatcher.Accounting

namespace JobEngine

theorem Registry.mem_jobs_insert {r : Registry} {j k : Job} (h : k ∈ (r.insert j).jobs) :
    k = j ∨ k ∈ r.jobs := by
  rcases List.mem_cons.1 h with h | h
  · exact .inl h
  · exact .inr ((List.filter_sublist.map _).subset h)

namespace Dispatcher

variable {τ : Type} {d d' e : Dispatcher τ} {now : Instant} {b : Bool} {j k : Job} {id : String}
  {m : UInt32} {p : Pending τ} {queue : Queue (Pending τ)} {a : Attempt}

/-- The records in the registry, in the queue and with the attempts. -/
def copies (d : Dispatcher τ) : List Job :=
  d.registry.jobs ++ (d.queue.toList.map (·.job) ++ d.attempts.map (·.last))

theorem mem_copies : j ∈ d.copies ↔ j ∈ d.registry.jobs ∨ (∃ p ∈ d.queue.toList, p.job = j) ∨
    ∃ a ∈ d.attempts, a.last = j := by
  simp [copies]

/-- Copies are passed on or dropped, and active jobs keep their handles. -/
structure Derives (d d' : Dispatcher τ) : Prop where
  active : d'.active.Subperm d.active
  handle : ∀ id ∈ d'.active, (d.handles.lookup id).isSome = true →
    (d'.handles.lookup id).isSome = true
  detached : d'.detached = d.detached
  registered : ∀ id, (d'.registry.get? id).isSome = true →
    (d.registry.get? id).isSome = true ∨ id ∈ d.active
  copies : ∀ j ∈ d'.copies, ∃ k ∈ d.copies, k.id = j.id ∧ k.numRestarts = j.numRestarts

namespace Derives

theorem refl (d : Dispatcher τ) : Derives d d where
  active := .refl _
  handle _ _ h := h
  detached := rfl
  registered _ h := .inl h
  copies j hj := ⟨j, hj, rfl, rfl⟩

theorem trans (h : Derives d d') (h' : Derives d' e) : Derives d e where
  active := h'.active.trans h.active
  handle id hi hs := h'.handle id hi (h.handle id (h'.active.subset hi) hs)
  detached := h'.detached.trans h.detached
  registered id hr := by
    rcases h'.registered id hr with hr | hi
    · exact h.registered id hr
    · exact .inr (h.active.subset hi)
  copies j hj := by
    obtain ⟨k, hk, hid, hn⟩ := h'.copies j hj
    obtain ⟨l, hl, hid', hn'⟩ := h.copies k hk
    exact ⟨l, hl, hid'.trans hid, hn'.trans hn⟩

theorem move (hp : d'.active.Perm d.active)
    (hc : ∀ j ∈ d'.copies, ∃ k ∈ d.copies, k.id = j.id ∧ k.numRestarts = j.numRestarts)
    (hh : d'.handles = d.handles) (hr : d'.registry = d.registry)
    (hd : d'.detached = d.detached) : Derives d d' where
  active := hp.subperm
  handle _ _ hs := hh ▸ hs
  detached := hd
  registered _ hs := .inl (hr ▸ hs)
  copies := hc

theorem reorder (hp : d'.queue.toList.Perm d.queue.toList) (ha : d'.attempts = d.attempts)
    (hh : d'.handles = d.handles) (hr : d'.registry = d.registry)
    (hd : d'.detached = d.detached) : Derives d d' := by
  refine .move ?_ (fun j hj ↦ ⟨j, ?_, rfl, rfl⟩) hh hr hd
  · simp only [Dispatcher.active, queued, runningIds, ha]
    exact (hp.map _).append_right _
  · simp only [mem_copies, hr, ha, hp.mem_iff] at hj ⊢
    exact hj

theorem forget (d : Dispatcher τ) (id : String) : Derives d (d.forget id) where
  active := .refl _
  handle _ _ h := h
  detached := rfl
  registered id' hs := by
    refine .inl ?_
    simp only [Dispatcher.forget, Registry.get?_erase] at hs
    split at hs
    · cases hs
    · exact hs
  copies j hj := by
    refine ⟨j, ?_, rfl, rfl⟩
    rw [mem_copies] at hj ⊢
    rcases hj with hj | hj
    · exact .inl ((List.filter_sublist.map _).subset hj)
    · exact .inr hj

theorem insert (hi : j.id ∈ d.active) (hk : k ∈ d.copies) (hid : k.id = j.id)
    (hn : k.numRestarts = j.numRestarts) :
    Derives d { d with registry := d.registry.insert j } where
  active := .refl _
  handle _ _ h := h
  detached := rfl
  registered id hs := by
    by_cases he : id = j.id
    · exact .inr (he ▸ hi)
    · refine .inl ?_
      rwa [Registry.get?_insert_of_ne he] at hs
  copies i hi := by
    rw [mem_copies] at hi
    rcases hi with hi | hi
    · rcases Registry.mem_jobs_insert hi with rfl | hi
      · exact ⟨k, hk, hid, hn⟩
      · exact ⟨i, mem_copies.2 (.inl hi), rfl, rfl⟩
    · exact ⟨i, mem_copies.2 (.inr hi), rfl, rfl⟩

theorem finalize {rest : Dispatcher τ} (hp : d.active.Perm (j.id :: rest.active))
    (hn : d.active.Nodup) (hk : k ∈ d.copies) (hid : k.id = j.id)
    (hnum : k.numRestarts = j.numRestarts) (hc : ∀ i ∈ rest.copies, i ∈ d.copies)
    (hh : rest.handles = d.handles) (hr : rest.registry = d.registry)
    (hd : rest.detached = d.detached) : Derives d (rest.finalize j) where
  active := (List.sublist_cons_self j.id rest.active).subperm.trans hp.symm.subperm
  handle id hi hs := by
    have hne : id ≠ j.id := by
      rintro rfl
      exact (List.nodup_cons.1 (hp.nodup_iff.1 hn)).1 hi
    change ((rest.handles.filter (·.1 ≠ j.id)).lookup id).isSome = true
    rw [Lookup.lookup_filter_ne, if_neg hne, hh, hs]
  detached := hd
  registered id hs := by
    by_cases he : id = j.id
    · exact .inr (hp.mem_iff.2 (he ▸ List.mem_cons_self))
    · refine .inl ?_
      have hs : ((rest.registry.insert j).get? id).isSome = true := hs
      rwa [Registry.get?_insert_of_ne he, hr] at hs
  copies i hi := by
    rw [mem_copies] at hi
    rcases hi with hi | hi
    · rcases Registry.mem_jobs_insert (show i ∈ (rest.registry.insert j).jobs from hi) with rfl | hi
      · exact ⟨k, hk, hid, hnum⟩
      · exact ⟨i, hc i (mem_copies.2 (.inl hi)), rfl, rfl⟩
    · exact ⟨i, hc i (mem_copies.2 (.inr hi)), rfl, rfl⟩

end Derives

/-- All records of a job count so many restarts. -/
def Counts (d : Dispatcher τ) (id : String) (m : UInt32) : Prop :=
  ∀ j ∈ d.copies, j.id = id → j.numRestarts = m

/-- Every active job is active once and has a handle, no detached job is registered or active, and
the records of a job agree on how often it was restarted. -/
structure Tracked (d : Dispatcher τ) : Prop where
  nodup : d.active.Nodup
  handle : ∀ id ∈ d.active, (d.handles.lookup id).isSome = true
  detached : ∀ id, (d.detached.get? id).isSome = true →
    d.registry.get? id = none ∧ id ∉ d.active
  counts : ∀ id, ∃ m, d.Counts id m

theorem Derives.counts (h : Derives d d') (hc : d.Counts id m) : d'.Counts id m := by
  intro j hj hid
  obtain ⟨k, hk, hkid, hn⟩ := h.copies j hj
  exact hn.symm.trans (hc k hk (hkid.trans hid))

theorem Derives.tracked (h : Derives d d') (ht : d.Tracked) : d'.Tracked where
  nodup := by
    obtain ⟨l, hp, hs⟩ := h.active
    exact hp.nodup_iff.1 (ht.nodup.sublist hs)
  handle id hi := h.handle id hi (ht.handle id (h.active.subset hi))
  detached id hs := by
    rw [h.detached] at hs
    obtain ⟨hr, hi⟩ := ht.detached id hs
    refine ⟨?_, fun hi' ↦ hi (h.active.subset hi')⟩
    refine Option.not_isSome_iff_eq_none.1 fun hs ↦ ?_
    rcases h.registered id hs with hs | hi'
    · rw [hr] at hs
      cases hs
    · exact hi hi'
  counts id := by
    obtain ⟨m, hm⟩ := ht.counts id
    exact ⟨m, h.counts hm⟩

theorem WellFormed.counts_of_idle (h : d.WellFormed) (hi : id ∉ d.active)
    (hm : ∀ j, d.registry.get? id = some j → j.numRestarts = m) : d.Counts id m := by
  intro j hj hid
  rw [mem_copies] at hj
  rcases hj with hj | ⟨p, hp, rfl⟩ | ⟨a, ha, rfl⟩
  · exact hm j (hid ▸ h.registry.get?_of_mem_jobs hj)
  · exact absurd (List.mem_append_left _ (hid ▸ List.mem_map_of_mem hp)) hi
  · rw [h.last_id a ha] at hid
    exact absurd (List.mem_append_right _ (hid ▸ List.mem_map_of_mem ha)) hi

theorem WellFormed.exists_counts_of_idle (h : d.WellFormed) (hi : id ∉ d.active) :
    ∃ m, d.Counts id m := by
  cases hr : d.registry.get? id with
  | none => exact ⟨0, h.counts_of_idle hi fun j hj ↦ by rw [hr] at hj; cases hj⟩
  | some k =>
    refine ⟨k.numRestarts, h.counts_of_idle hi fun j hj ↦ ?_⟩
    rw [hr, Option.some.injEq] at hj
    rw [hj]

namespace Tracked

theorem counts_registered (h : d.Tracked) (hw : d.WellFormed) (hj : d.registry.get? id = some j) :
    d.Counts id j.numRestarts := by
  obtain ⟨m, hm⟩ := h.counts id
  obtain rfl := hw.registry.id_of_get? hj
  rwa [hm j (mem_copies.2 (.inl (hw.registry.mem_jobs_iff.2 hj))) rfl]

theorem look (h : d.Tracked) (hw : d.WellFormed) (hl : d.look now = some (d', b)) :
    Derives d d' := by
  obtain ⟨p, queue, -, hq, hl⟩ := look_cases hl
  obtain ⟨hv, hlist⟩ := hw.queue.dequeue_eq_some hq
  have hp : p ∈ d.queue.toList := by
    rw [hlist]
    exact List.mem_cons_self
  have hi : p.job.id ∈ d.active := List.mem_append_left _ (List.mem_map_of_mem hp)
  have hjob : p.job ∈ d.copies := mem_copies.2 (.inr (.inl ⟨p, hp, rfl⟩))
  have hactive : d.active = p.job.id :: { d with queue }.active := by
    simp only [active, queued, runningIds, hlist, List.map_cons, List.cons_append]
  have hrest : ∀ j ∈ { d with queue }.copies, j ∈ d.copies := by
    intro j hj
    simp only [copies, hlist, List.map_cons, List.mem_append, List.mem_cons] at hj ⊢
    tauto
  obtain ⟨n, -, he⟩ | ⟨hn, -⟩ := handleFor_cases d p.job.id
  · rw [he] at hl
    cases hl with
    | cancelled =>
      exact .finalize (j := p.job.fail now _) (.of_eq hactive) h.nodup hjob rfl rfl hrest rfl rfl
        rfl
    | launched =>
      -- the record is registered while the entry is still queued, then the entry starts running
      have hins : Derives d { d with registry := d.registry.insert (p.job.touch now) } :=
        .insert (j := p.job.touch now) hi hjob rfl rfl
      refine hins.trans (.move ?_ (fun j hj ↦ ?_) rfl rfl rfl)
      · simp only [active, queued, runningIds, launch, hlist, List.map_append, List.map_cons,
          List.map_nil, ← List.append_assoc, List.cons_append]
        exact List.perm_append_singleton _ _
      · refine ⟨j, ?_, rfl, rfl⟩
        simp only [mem_copies, launch, List.mem_append, List.mem_singleton] at hj
        rw [mem_copies]
        rcases hj with hj | ⟨q, hq, rfl⟩ | ⟨a, ha | rfl, rfl⟩
        · exact .inl hj
        · exact .inr (.inl ⟨q, by rw [hlist]; exact List.mem_cons_of_mem _ hq, rfl⟩)
        · exact .inr (.inr ⟨a, ha, rfl⟩)
        · exact .inl List.mem_cons_self
    | postponed =>
      have hperm : (queue.enqueue p).toList.Perm d.queue.toList := by
        rw [(hv.enqueue p).2, hlist]
        exact List.perm_append_singleton _ _
      exact .reorder hperm rfl rfl rfl rfl
    | skipped =>
      exact .finalize (j := p.job.fail now _) (.of_eq hactive) h.nodup hjob rfl rfl hrest rfl rfl
        rfl
  · have hs := h.handle _ hi
    rw [hn] at hs
    cases hs

theorem dispatchReady (h : d.Tracked) (hw : d.WellFormed) (now : Instant) :
    Derives d (d.dispatchReady now) := by
  have hlook (e e' : Dispatcher τ) (b : Bool) (he : Derives d e ∧ e.WellFormed)
      (hl : e.look now = some (e', b)) : Derives d e' ∧ e'.WellFormed :=
    ⟨he.1.trans (Tracked.look (he.1.tracked h) he.2 hl), he.2.look hl⟩
  obtain ⟨hl, -⟩ := lookAll_induction hlook d.queue.size ⟨.refl d, hw⟩ false
  rcases dispatchReady_cases d now with he | he
  · rw [he]
    exact hl
  · rw [he]
    exact hl.trans (.reorder (.refl _) rfl rfl rfl rfl)

theorem endAttempt (h : d.Tracked) (hw : d.WellFormed) (ha : a ∈ d.attempts) (hj : j.id = a.id)
    (hn : j.numRestarts = a.last.numRestarts) : Derives d (d.endAttempt a j) := by
  obtain ⟨xs, ys, he, hf⟩ := hw.attempts_filter ha
  have hk : a.last ∈ d.copies := mem_copies.2 (.inr (.inr ⟨a, ha, rfl⟩))
  let rest : Dispatcher τ := { d with
    running := d.running - 1
    attempts := d.attempts.filter (·.ticket ≠ a.ticket) }
  have hp : d.active.Perm (j.id :: rest.active) := by
    have hr : rest.attempts = xs ++ ys := hf
    simp only [active, queued, runningIds, hr, he, hj, List.map_append, List.map_cons]
    rw [← List.append_assoc, ← List.append_assoc]
    exact List.perm_middle
  have hc : ∀ i ∈ rest.copies, i ∈ d.copies := by
    intro i hi
    rw [mem_copies] at hi ⊢
    rcases hi with hi | hi | ⟨x, hx, rfl⟩
    · exact .inl hi
    · exact .inr (.inl hi)
    · exact .inr (.inr ⟨x, List.mem_of_mem_filter hx, rfl⟩)
  have hfin : Derives d (rest.finalize j) :=
    .finalize hp h.nodup hk (hw.last_id a ha ▸ hj.symm) hn.symm hc rfl rfl rfl
  exact hfin.trans (.reorder (.refl _) rfl rfl rfl rfl)

theorem report (h : d.Tracked) (hw : d.WellFormed) (ticket : Nat) (j : Job)
    (hn : ∀ a ∈ d.attempts, a.ticket = ticket → j.id = a.id →
      j.numRestarts = a.last.numRestarts) : Derives d (d.report ticket j) := by
  rcases report_cases d ticket j with he | ⟨a, ha, ht, hj, ⟨-, he⟩ | ⟨-, he⟩⟩
  · rw [he]
    exact .refl d
  · rw [he]
    exact h.endAttempt hw ha hj (hn a ha ht hj)
  · have hk : a.last ∈ d.copies := mem_copies.2 (.inr (.inr ⟨a, ha, rfl⟩))
    have hi : j.id ∈ d.active := List.mem_append_right _ (hj ▸ List.mem_map_of_mem ha)
    have hins : Derives d { d with registry := d.registry.insert j } :=
      .insert hi hk (hw.last_id a ha ▸ hj.symm) (hn a ha ht hj).symm
    rw [he]
    refine hins.trans (.move (.of_eq ?_) (fun i hi ↦ ⟨i, ?_, rfl, rfl⟩) rfl rfl rfl)
    · simp only [active, queued, runningIds, noteLast, List.map_map]
      congr 1
      exact List.map_congr_left fun x _ ↦ by simp only [Function.comp_apply]; split <;> rfl
    · rw [mem_copies] at hi ⊢
      rcases hi with hi | hi | ⟨x, hx, rfl⟩
      · exact .inl hi
      · exact .inr (.inl hi)
      · obtain ⟨y, hy, rfl⟩ := List.mem_map.1 hx
        split
        · exact .inl List.mem_cons_self
        · exact .inr (.inr ⟨y, hy, rfl⟩)

theorem taskOver (h : d.Tracked) (hw : d.WellFormed) (now : Instant) (ticket : Nat)
    (panicked : Bool) : Derives d (d.taskOver now ticket panicked) := by
  rcases taskOver_cases d now ticket panicked with he | ⟨a, ha, error, he⟩
  · rw [he]
    exact .refl d
  · rw [he]
    exact h.endAttempt hw ha (hw.last_id a ha) rfl

theorem handleStop (h : d.Tracked) (hw : d.WellFormed) (now : Instant) (id : String) :
    Derives d (d.handleStop now id) := by
  rcases handleStop_cases d now id with ⟨-, he⟩ | ⟨n, -, ⟨-, he⟩ | ⟨p, queue, hr, he⟩⟩
  · rw [he]
    exact .refl d
  · rw [he]
    exact .reorder (.refl _) rfl rfl rfl rfl
  · obtain ⟨-, -, as, bs, hl, -, hl'⟩ := hw.queue.remove_eq_some hr
    have hp : d.queue.toList.Perm (p :: queue.toList) := by
      rw [hl, hl']
      exact List.perm_middle
    have hjob : p.job ∈ d.copies :=
      mem_copies.2 (.inr (.inl ⟨p, hp.mem_iff.2 List.mem_cons_self, rfl⟩))
    rw [he]
    refine .finalize (j := p.job.fail now _) ?_ h.nodup hjob rfl rfl (fun j hj ↦ ?_) rfl rfl rfl
    · exact (hp.map (·.job.id)).append_right d.runningIds
    · simp only [mem_copies, hp.mem_iff] at hj ⊢
      rcases hj with hj | ⟨q, hq, he⟩ | hj
      · exact .inl hj
      · exact .inr (.inl ⟨q, List.mem_cons_of_mem _ hq, he⟩)
      · exact .inr (.inr hj)

end Tracked

theorem Derives.delayNext (hw : d.WellFormed) : Derives d d.delayNext.2 := by
  unfold Dispatcher.delayNext
  cases hq : d.queue.delayNext with
  | none => exact .refl d
  | some queue =>
    refine .reorder ?_ rfl rfl rfl rfl
    obtain ⟨-, ⟨hl, -⟩ | ⟨p, p', rest, hl, hl'⟩⟩ := hw.queue.delayNext_eq_some hq
    · exact .of_eq hl
    · rw [hl, hl']
      exact List.Perm.swap p p' rest

theorem Derives.clearIfFinished (d : Dispatcher τ) (id : String) :
    Derives d (d.clearIfFinished id).2 := by
  rcases clearIfFinished_cases d id with he | ⟨j, -, -, he⟩
  · rw [he]
    exact refl d
  · rw [he]
    exact forget d id

theorem Derives.prune (d : Dispatcher τ) (now : Instant) (age : Int) :
    Derives d (d.perform now (.prune age)) := by
  rcases prune_cases d now age with he | ⟨cutoff, he⟩
  · rw [he]
    exact refl d
  · rw [he]
    exact pruneBefore_induction cutoff (fun e j _ h ↦ h.trans (forget e j.id)) (refl d)

theorem enqueue_cases (hv : d.queue.Valid) (task : τ) (j : Job) :
    (d.enqueue task j).registry = d.registry.insert j ∧
      (d.enqueue task j).attempts = d.attempts ∧ (d.enqueue task j).detached = d.detached ∧
      (∃ ticket, (d.enqueue task j).queue.toList = d.queue.toList ++ [⟨ticket, task, j⟩]) ∧
      ∀ id, ((d.enqueue task j).handles.lookup id).isSome = true ↔
        id = j.id ∨ (d.handles.lookup id).isSome = true := by
  unfold enqueue
  rcases handleFor_cases d j.id with ⟨n, hn, he⟩ | ⟨-, he⟩
  · rw [he]
    refine ⟨rfl, rfl, rfl, ⟨_, (hv.enqueue _).2⟩, fun id ↦ ⟨.inr, ?_⟩⟩
    rintro (rfl | hs)
    · exact Option.isSome_iff_exists.2 ⟨n, hn⟩
    · exact hs
  · rw [he]
    refine ⟨rfl, rfl, rfl, ⟨_, (hv.enqueue _).2⟩, fun id ↦ ?_⟩
    by_cases hi : id = j.id <;> simp [Lookup.lookup_cons, hi]

theorem mem_active_enqueue (hv : d.queue.Valid) {task : τ} :
    id ∈ (d.enqueue task j).active ↔ id = j.id ∨ id ∈ d.active := by
  obtain ⟨-, ha, -, ⟨ticket, hq⟩, -⟩ := enqueue_cases hv task j
  simp only [active, queued, runningIds, ha, hq, List.map_append, List.map_cons, List.map_nil,
    List.mem_append, List.mem_singleton]
  tauto

theorem Counts.enqueue (hc : d.Counts id m) (hv : d.queue.Valid) (hne : j.id ≠ id) (task : τ) :
    (d.enqueue task j).Counts id m := by
  obtain ⟨hr, ha, -, ⟨ticket, hq⟩, -⟩ := enqueue_cases hv task j
  intro k hk hid
  rw [mem_copies, hr, ha, hq] at hk
  have hkj : k ≠ j := by
    rintro rfl
    exact hne hid
  apply hc k _ hid
  rw [mem_copies]
  rcases hk with hk | ⟨p, hp, rfl⟩ | hk
  · exact .inl ((Registry.mem_jobs_insert hk).resolve_left hkj)
  · rcases List.mem_append.1 hp with hp | hp
    · exact .inr (.inl ⟨p, hp, rfl⟩)
    · obtain rfl := List.mem_singleton.1 hp
      exact absurd rfl hkj
  · exact .inr (.inr hk)

theorem WellFormed.counts_enqueue (h : d.WellFormed) (hi : j.id ∉ d.active) (task : τ) :
    (d.enqueue task j).Counts j.id j.numRestarts := by
  obtain ⟨hr, ha, -, ⟨ticket, hq⟩, -⟩ := enqueue_cases h.queue task j
  intro k hk hid
  rw [mem_copies, hr, ha, hq] at hk
  rcases hk with hk | ⟨p, hp, rfl⟩ | ⟨a, ha, rfl⟩
  · have hkj := (h.registry.insert j).get?_of_mem_jobs hk
    rw [hid, Registry.get?_insert_self, Option.some.injEq] at hkj
    rw [hkj]
  · rcases List.mem_append.1 hp with hp | hp
    · exact absurd (List.mem_append_left _ (hid ▸ List.mem_map_of_mem hp)) hi
    · obtain rfl := List.mem_singleton.1 hp
      rfl
  · rw [h.last_id a ha] at hid
    exact absurd (List.mem_append_right _ (hid ▸ List.mem_map_of_mem ha)) hi

theorem Counts.congr (hc : d.Counts id m) (hr : d'.registry = d.registry)
    (hq : d'.queue = d.queue) (ha : d'.attempts = d.attempts) : d'.Counts id m := by
  intro j hj
  rw [mem_copies, hr, hq, ha] at hj
  exact hc j (mem_copies.2 hj)

theorem Counts.insert (hc : d.Counts id m) (hne : j.id ≠ id) :
    { d with registry := d.registry.insert j }.Counts id m := by
  intro k hk hid
  apply hc k _ hid
  rw [mem_copies] at hk ⊢
  rcases hk with hk | hk
  · refine .inl ((Registry.mem_jobs_insert hk).resolve_left ?_)
    rintro rfl
    exact hne hid
  · exact .inr hk

theorem Counts.enqueueAfter (hc : d.Counts id m) (hw : d.WellFormed) (hne : j.id ≠ id)
    (now : Instant) (task : τ) (parent : String) :
    (d.enqueueAfter now task j parent).2.Counts id m := by
  rcases enqueueAfter_cases hw.deps now task j parent with ⟨c, he⟩ | ⟨p, -, -, he⟩
  · rw [he]
    exact hc
  · rw [he]
    exact (hc.enqueue hw.queue hne task).congr rfl rfl rfl

theorem Counts.restart (hc : d.Counts id m) (hw : d.WellFormed) (hne : j.id ≠ id)
    (now : Instant) : (d.restart now j).2.Counts id m := by
  rcases restart_cases d now j with ⟨c, he⟩ | ⟨task, current, hcur, -, -, -, he⟩
  · rw [he]
    exact hc
  · have hid : current.id ≠ id := by
      rw [hcur, hw.current_id j]
      exact hne
    have hd : { d with detached := d.detached.erase current.id }.Counts id m := hc.congr rfl rfl rfl
    rw [he]
    exact (hd.enqueue hw.queue (j := current.again now) hid task).congr rfl rfl rfl

theorem Counts.resume (hc : d.Counts id m) (hw : d.WellFormed)
    (hd : d.detached.get? id = none) (now : Instant) : (d.resume now).2.Counts id m := by
  apply hw.resume_others (motive := (Counts · id m)) hd
  · exact fun e j hw hc hi ↦ hc.restart hw (Ne.symm hi) now
  · exact fun e j error hc hi ↦
      (hc.insert (j := j.fail now error) (Ne.symm hi)).congr rfl rfl rfl
  · exact hc

namespace Tracked

theorem enqueue (h : d.Tracked) (hw : d.WellFormed) (hi : j.id ∉ d.active)
    (hd : d.detached.get? j.id = none) (task : τ) : (d.enqueue task j).Tracked := by
  obtain ⟨hr, ha, hdet, ⟨ticket, hq⟩, hh⟩ := enqueue_cases hw.queue task j
  refine ⟨?_, fun id hm ↦ ?_, fun id hs ↦ ?_, fun id ↦ ?_⟩
  · have hp : (d.enqueue task j).active.Perm (j.id :: d.active) := by
      simp only [active, queued, runningIds, ha, hq, List.map_append, List.map_cons, List.map_nil,
        List.append_assoc]
      exact List.perm_middle
    exact hp.nodup_iff.2 (List.nodup_cons.2 ⟨hi, h.nodup⟩)
  · rw [hh]
    rcases (mem_active_enqueue hw.queue).1 hm with hm | hm
    · exact .inl hm
    · exact .inr (h.handle id hm)
  · rw [hdet] at hs
    have hne : id ≠ j.id := by
      rintro rfl
      rw [hd] at hs
      cases hs
    obtain ⟨hnone, hm⟩ := h.detached id hs
    refine ⟨?_, fun hm' ↦ ?_⟩
    · rw [hr, Registry.get?_insert_of_ne hne, hnone]
    · exact ((mem_active_enqueue hw.queue).1 hm').elim hne hm
  · by_cases hid : id = j.id
    · exact ⟨j.numRestarts, hid ▸ hw.counts_enqueue hi task⟩
    · obtain ⟨m, hm⟩ := h.counts id
      exact ⟨m, hm.enqueue hw.queue (Ne.symm hid) task⟩

theorem setDeps (h : d.Tracked) (g : DependencyGraph) : { d with deps := g }.Tracked := { h with }

theorem eraseDetached (h : d.Tracked) (id : String) :
    { d with detached := d.detached.erase id }.Tracked :=
  { h with
    detached := fun id' hs ↦ by
      rw [Registry.get?_erase] at hs
      split at hs
      · cases hs
      · exact h.detached id' hs }

theorem enqueueAfter (h : d.Tracked) (hw : d.WellFormed) (hi : j.id ∉ d.active)
    (hd : d.detached.get? j.id = none) (now : Instant) (task : τ) (parent : String) :
    (d.enqueueAfter now task j parent).2.Tracked := by
  rcases enqueueAfter_cases hw.deps now task j parent with ⟨c, he⟩ | ⟨p, -, -, he⟩
  · rw [he]
    exact h
  · rw [he]
    exact (h.enqueue hw hi hd task).setDeps _

theorem not_mem_active (h : d.Tracked) (hn : d.handles.lookup id = none) : id ∉ d.active := by
  intro hi
  have hs := h.handle id hi
  rw [hn] at hs
  cases hs

theorem restart (h : d.Tracked) (hw : d.WellFormed) (now : Instant) (j : Job) :
    (d.restart now j).2.Tracked := by
  rcases restart_cases d now j with ⟨c, he⟩ | ⟨task, current, -, -, hl, -, he⟩
  · rw [he]
    exact h
  · rw [he]
    have hw' : { d with detached := d.detached.erase current.id }.WellFormed :=
      { hw with detached := hw.detached.erase _ }
    have hi : (current.again now).id ∉ d.active := h.not_mem_active hl
    have hd := h.eraseDetached current.id
    exact (hd.enqueue hw' hi (Registry.get?_erase_self _ _) task).setDeps _

theorem refuse (h : d.Tracked) (hw : d.WellFormed) (hd : (d.detached.get? j.id).isSome = true)
    (now : Instant) (error : String) : { d with
      detached := d.detached.erase j.id
      registry := d.registry.insert (j.fail now error) }.Tracked := by
  have hi := (h.detached j.id hd).2
  refine ⟨h.nodup, h.handle, fun id hs ↦ ?_, fun id ↦ ?_⟩
  · rw [Registry.get?_erase] at hs
    split at hs
    · cases hs
    · next hne =>
      have hne : id ≠ (j.fail now error).id := hne
      rw [Registry.get?_insert_of_ne hne]
      exact h.detached id hs
  · by_cases hid : id = j.id
    · have hw' := hw.refuse j.id (j.fail now error)
      exact hw'.exists_counts_of_idle (hid ▸ hi)
    · obtain ⟨m, hm⟩ := h.counts id
      exact ⟨m, (hm.insert (j := j.fail now error) (Ne.symm hid)).congr rfl rfl rfl⟩

theorem resume (h : d.Tracked) (hw : d.WellFormed) (now : Instant) :
    (d.resume now).2.Tracked := by
  apply hw.resume_keeps (motive := Tracked)
  · exact fun e j hw h ↦ h.restart hw now j
  · exact fun e j error hw h hd ↦ h.refuse hw hd now error
  · exact h

end Tracked

end Dispatcher

end JobEngine
