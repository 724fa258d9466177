import JobEngine.Proofs.Dispatcher.Restarts
import JobEngine.Proofs.Dispatcher.Settlement

namespace JobEngine.Dispatcher

variable {τ : Type} {d d' e rest : Dispatcher τ} {now : Instant} {b : Bool} {j : Job} {id : String}
  {o : Operation τ} {p : Pending τ} {queue : Queue (Pending τ)} {n : Nat}
  {past later earlier : List (Step τ)}

/-- An attempt keeps the handle that it was launched with, and a job in the queue has one that was
neither cancelled nor launched. Unfinished jobs in the queue are registered so. -/
structure Engaged (d : Dispatcher τ) : Prop where
  nodup : d.active.Nodup
  handle_iff : ∀ id, (d.handles.lookup id).isSome = true ↔ id ∈ d.active
  apart : ∀ id id' n, d.handles.lookup id = some n → d.handles.lookup id' = some n → id = id'
  handle_lt : ∀ id n, d.handles.lookup id = some n → n < d.fresh
  cancelled_lt : ∀ n ∈ d.cancelled, n < d.fresh
  launched_lt : ∀ l ∈ d.launches, l.attempt.handle < d.fresh
  once : (d.launches.map (·.attempt.handle)).Nodup
  running : ∀ a ∈ d.attempts, d.handles.lookup a.id = some a.handle
  queued : ∀ p ∈ d.queue.toList, ∀ n, d.handles.lookup p.job.id = some n →
    n ∉ d.cancelled ∧ ∀ l ∈ d.launches, l.attempt.handle ≠ n
  registered : ∀ p ∈ d.queue.toList, p.job.finished = false → d.Unfinished p.job.id
  detached : ∀ id, (d.detached.get? id).isSome = true → id ∉ d.active

theorem engaged_takeUp (processors : UInt64) (config : JobsConfig) (runners : Runners τ)
    (jobs : List Job) : ((create processors config runners).takeUp jobs).Engaged := by
  obtain ⟨registry, detached, he⟩ := takeUp_eq jobs (create processors config runners)
  rw [he]
  constructor <;> simp [create, active, Dispatcher.queued, runningIds]

theorem mem_queued (hp : p ∈ d.queue.toList) : p.job.id ∈ d.queued := List.mem_map_of_mem hp

namespace Engaged

theorem not_running (h : d.Engaged) (hi : id ∈ d.queued) : id ∉ d.runningIds :=
  fun hr ↦ (List.nodup_append.1 h.nodup).2.2 id hi id hr rfl

theorem eq_of_queued (h : d.Engaged) {q : Pending τ} (hp : p ∈ d.queue.toList)
    (hq : q ∈ d.queue.toList) (hid : p.job.id = q.job.id) : p = q :=
  List.inj_on_of_nodup_map (List.nodup_append.1 h.nodup).1 hp hq hid

theorem lookup_queued (h : d.Engaged) (hp : p ∈ d.queue.toList) :
    ∃ n, d.handles.lookup p.job.id = some n := by
  have hi : p.job.id ∈ d.active := List.mem_append_left _ (mem_queued hp)
  exact Option.isSome_iff_exists.1 ((h.handle_iff _).2 hi)

theorem lookup_eq_none (h : d.Engaged) (hi : id ∉ d.active) : d.handles.lookup id = none :=
  Option.not_isSome_iff_eq_none.1 fun hs ↦ hi ((h.handle_iff id).1 hs)

theorem keep (h : d.Engaged) (hq : d'.queue.toList.Perm d.queue.toList)
    (ha : d'.attempts.map (fun a ↦ (a.id, a.handle)) = d.attempts.map fun a ↦ (a.id, a.handle))
    (hh : d'.handles = d.handles) (hc : d'.cancelled = d.cancelled)
    (hl : d'.launches = d.launches) (hf : d'.fresh = d.fresh)
    (ht : ∀ id, (d'.detached.get? id).isSome = true → (d.detached.get? id).isSome = true)
    (hr : ∀ id ∈ d.queued, d.Unfinished id → d'.Unfinished id) : d'.Engaged := by
  have hids : d'.runningIds = d.runningIds := by
    have hids := congrArg (List.map Prod.fst) ha
    rw [List.map_map, List.map_map] at hids
    exact hids
  have hp : d'.active.Perm d.active := by
    rw [active, hids]
    exact (hq.map _).append_right _
  refine ⟨hp.nodup_iff.2 h.nodup, fun id ↦ ?_, hh ▸ h.apart, ?_, ?_, ?_, hl ▸ h.once,
    fun a hm ↦ ?_, fun p hm ↦ ?_, fun p hm hj ↦ ?_, fun id hs hi ↦ ?_⟩
  · rw [hh, hp.mem_iff]
    exact h.handle_iff id
  · rw [hh, hf]
    exact h.handle_lt
  · rw [hc, hf]
    exact h.cancelled_lt
  · rw [hl, hf]
    exact h.launched_lt
  · have hm : (a.id, a.handle) ∈ d.attempts.map fun a ↦ (a.id, a.handle) :=
      ha ▸ List.mem_map_of_mem hm
    obtain ⟨x, hx, he⟩ := List.mem_map.1 hm
    obtain ⟨hid, hn⟩ := Prod.mk.inj he
    rw [hh, ← hid, ← hn]
    exact h.running x hx
  · rw [hh, hc, hl]
    exact h.queued p (hq.mem_iff.1 hm)
  · have hm := hq.mem_iff.1 hm
    exact hr _ (mem_queued hm) (h.registered p hm hj)
  · exact h.detached id (ht id hs) (hp.mem_iff.1 hi)

theorem settle (h : d.Engaged) (hp : d.active.Perm (j.id :: rest.active))
    (hq : rest.queue.toList ⊆ d.queue.toList) (ha : rest.attempts ⊆ d.attempts)
    (hh : rest.handles = d.handles) (hc : rest.cancelled = d.cancelled)
    (hl : rest.launches = d.launches) (hf : rest.fresh = d.fresh)
    (ht : rest.detached = d.detached) (hr : rest.registry = d.registry) :
    (rest.finalize j).Engaged := by
  have hn := List.nodup_cons.1 (hp.nodup_iff.1 h.nodup)
  have hlookup (id : String) : (rest.finalize j).handles.lookup id =
      if id = j.id then none else d.handles.lookup id := by
    rw [← hh]
    exact Lookup.lookup_filter_ne j.id id rest.handles
  have hsome {id : String} {n : Nat} (hs : (rest.finalize j).handles.lookup id = some n) :
      d.handles.lookup id = some n := by
    rw [hlookup] at hs
    split at hs
    · cases hs
    · exact hs
  have hne {id : String} (hi : id ∈ rest.active) : id ≠ j.id := by
    rintro rfl
    exact hn.1 hi
  refine ⟨hn.2, fun id ↦ ?_, fun id id' n hs hs' ↦ h.apart id id' n (hsome hs) (hsome hs'),
    fun id n hs ↦ ?_, ?_, ?_, hl ▸ h.once, fun a hm ↦ ?_, fun p hm n hs ↦ ?_, fun p hm hj ↦ ?_,
    fun id hs hi ↦ ?_⟩
  · change _ ↔ id ∈ rest.active
    rw [hlookup]
    split
    · next he => simpa [he] using hn.1
    · next he => rw [h.handle_iff, hp.mem_iff, List.mem_cons, or_iff_right he]
  · change n < rest.fresh
    rw [hf]
    exact h.handle_lt id n (hsome hs)
  · change ∀ n ∈ rest.cancelled, n < rest.fresh
    rw [hc, hf]
    exact h.cancelled_lt
  · change ∀ l ∈ rest.launches, l.attempt.handle < rest.fresh
    rw [hl, hf]
    exact h.launched_lt
  · have hi : a.id ∈ rest.active := List.mem_append_right _ (List.mem_map_of_mem hm)
    rw [hlookup, if_neg (hne hi)]
    exact h.running a (ha hm)
  · change n ∉ rest.cancelled ∧ ∀ l ∈ rest.launches, l.attempt.handle ≠ n
    rw [hc, hl]
    exact h.queued p (hq hm) n (hsome hs)
  · have hi : p.job.id ∈ rest.active := List.mem_append_left _ (mem_queued hm)
    have hu := h.registered p (hq hm) hj
    rw [Unfinished, ← hr] at hu
    obtain ⟨k, hk, hkf⟩ := hu
    exact ⟨k, (Registry.get?_insert_of_ne (hne hi)).trans hk, hkf⟩
  · have hs : (rest.detached.get? id).isSome = true := hs
    rw [ht] at hs
    exact h.detached id hs (hp.mem_iff.2 (List.mem_cons_of_mem _ hi))

theorem launch (h : d.Engaged) (hlist : d.queue.toList = p :: queue.toList)
    (hn : d.handles.lookup p.job.id = some n) (freeSlots : Nat) (now : Instant) :
    ({ d with freeSlots, queue }.launch now p n).Engaged := by
  have hp : p ∈ d.queue.toList := by
    rw [hlist]
    exact List.mem_cons_self
  have hsub {q : Pending τ} (hq : q ∈ queue.toList) : q ∈ d.queue.toList := by
    rw [hlist]
    exact List.mem_cons_of_mem _ hq
  obtain ⟨-, hfree⟩ := h.queued p hp n hn
  have hperm : ({ d with freeSlots, queue }.launch now p n).active.Perm d.active := by
    simp only [active, Dispatcher.queued, runningIds, Dispatcher.launch, hlist, List.map_append,
      List.map_cons, List.map_nil, ← List.append_assoc, List.cons_append]
    exact List.perm_append_singleton _ _
  have hne {q : Pending τ} (hq : q ∈ queue.toList) : q.job.id ≠ p.job.id := by
    have hnodup := (List.nodup_append.1 h.nodup).1
    rw [Dispatcher.queued, hlist, List.map_cons, List.nodup_cons] at hnodup
    exact fun he ↦ hnodup.1 (he ▸ List.mem_map_of_mem hq)
  refine ⟨hperm.nodup_iff.2 h.nodup, fun id ↦ ?_, h.apart, h.handle_lt, h.cancelled_lt,
    fun l hl ↦ ?_, ?_, fun a ha ↦ ?_, fun q hq m hm ↦ ?_, fun q hq hj ↦ ?_, fun id hs hi ↦ ?_⟩
  · rw [hperm.mem_iff]
    exact h.handle_iff id
  · rcases List.mem_append.1 hl with hl | hl
    · exact h.launched_lt l hl
    · obtain rfl := List.mem_singleton.1 hl
      exact h.handle_lt _ n hn
  · simp only [Dispatcher.launch, List.map_append, List.map_cons, List.map_nil]
    refine List.nodup_append.2 ⟨h.once, List.nodup_singleton _, fun m hm m' hm' ↦ ?_⟩
    obtain ⟨l, hl, rfl⟩ := List.mem_map.1 hm
    obtain rfl := List.mem_singleton.1 hm'
    exact hfree l hl
  · rcases List.mem_append.1 ha with ha | ha
    · exact h.running a ha
    · obtain rfl := List.mem_singleton.1 ha
      exact hn
  · obtain ⟨hc, hl⟩ := h.queued q (hsub hq) m hm
    refine ⟨hc, fun l hmem ↦ ?_⟩
    rcases List.mem_append.1 hmem with hmem | hmem
    · exact hl l hmem
    · obtain rfl := List.mem_singleton.1 hmem
      rintro rfl
      exact hne hq (h.apart _ _ _ hm hn)
  · obtain ⟨k, hk, hkf⟩ := h.registered q (hsub hq) hj
    exact ⟨k, (Registry.get?_insert_of_ne (j := p.job.touch now) (hne hq)).trans hk, hkf⟩
  · exact h.detached id hs (hperm.mem_iff.1 hi)

theorem enqueue (h : d.Engaged) (hv : d.queue.Valid) (task : τ) (hi : j.id ∉ d.active)
    (hd : d.detached.get? j.id = none) : (d.enqueue task j).Engaged := by
  have hl := h.lookup_eq_none hi
  have he : d.enqueue task j = { d with
      handles := (j.id, d.fresh) :: d.handles
      registry := d.registry.insert j
      queue := d.queue.enqueue ⟨d.fresh + 1, task, j⟩
      fresh := d.fresh + 1 + 1
      wakeup := true } := by
    simp only [Dispatcher.enqueue, handleFor, hl]
  have hlist : (d.queue.enqueue ⟨d.fresh + 1, task, j⟩).toList =
      d.queue.toList ++ [⟨d.fresh + 1, task, j⟩] := (hv.enqueue _).2
  have hp : (d.enqueue task j).active.Perm (j.id :: d.active) := by
    simp only [he, active, Dispatcher.queued, runningIds, hlist, List.map_append, List.map_cons,
      List.map_nil, List.append_assoc]
    exact List.perm_middle
  have hlookup (id : String) : (d.enqueue task j).handles.lookup id =
      if id = j.id then some d.fresh else d.handles.lookup id := by
    rw [he]
    exact Lookup.lookup_cons ..
  have hfresh : (d.enqueue task j).fresh = d.fresh + 1 + 1 := by rw [he]
  have hcancelled : (d.enqueue task j).cancelled = d.cancelled := by rw [he]
  have hlaunches : (d.enqueue task j).launches = d.launches := by rw [he]
  -- the new handle is greater than all others
  have hold {id : String} {n : Nat} (hs : (d.enqueue task j).handles.lookup id = some n) :
      id = j.id ∧ n = d.fresh ∨ d.handles.lookup id = some n ∧ n < d.fresh := by
    rw [hlookup] at hs
    split at hs
    · next hid => exact .inl ⟨hid, (Option.some.inj hs).symm⟩
    · exact .inr ⟨hs, h.handle_lt id n hs⟩
  refine ⟨hp.nodup_iff.2 (List.nodup_cons.2 ⟨hi, h.nodup⟩), fun id ↦ ?_,
    fun id id' n hs hs' ↦ ?_, fun id n hs ↦ ?_, fun n hn ↦ ?_, fun l hm ↦ ?_, ?_, fun a ha ↦ ?_,
    fun p hm n hs ↦ ?_, fun p hm hj ↦ ?_, fun id hs hm ↦ ?_⟩
  · rw [hlookup, hp.mem_iff, List.mem_cons]
    split
    · next hid => simp [hid]
    · next hid => rw [h.handle_iff, or_iff_right hid]
  · rcases hold hs with ⟨hid, rfl⟩ | ⟨hs, hlt⟩
    · rcases hold hs' with ⟨hid', -⟩ | ⟨-, hlt⟩
      · rw [hid, hid']
      · omega
    · rcases hold hs' with ⟨-, rfl⟩ | ⟨hs', -⟩
      · omega
      · exact h.apart id id' n hs hs'
  · rcases hold hs with ⟨-, rfl⟩ | ⟨-, hlt⟩ <;> omega
  · rw [hcancelled] at hn
    have hlt := h.cancelled_lt n hn
    omega
  · rw [hlaunches] at hm
    have hlt := h.launched_lt l hm
    omega
  · rw [hlaunches]
    exact h.once
  · have ha : a ∈ d.attempts := by rwa [he] at ha
    have hne : a.id ≠ j.id := by
      rintro hid
      exact hi (hid ▸ List.mem_append_right _ (List.mem_map_of_mem ha))
    rw [hlookup, if_neg hne]
    exact h.running a ha
  · rw [hcancelled, hlaunches]
    rcases hold hs with ⟨-, rfl⟩ | ⟨hs, hlt⟩
    · exact ⟨fun hc ↦ (h.cancelled_lt _ hc).ne rfl, fun l hl ↦ (h.launched_lt l hl).ne⟩
    · rw [he, hlist] at hm
      rcases List.mem_append.1 hm with hm | hm
      · exact h.queued p hm n hs
      · obtain rfl := List.mem_singleton.1 hm
        rw [hl] at hs
        cases hs
  · rw [he, hlist] at hm
    have hreg : (d.enqueue task j).registry = d.registry.insert j := by rw [he]
    rw [Unfinished, hreg]
    rcases List.mem_append.1 hm with hm | hm
    · obtain ⟨k, hk, hkf⟩ := h.registered p hm hj
      have hne : p.job.id ≠ j.id := fun hid ↦ hi (hid ▸ List.mem_append_left _ (mem_queued hm))
      exact ⟨k, (Registry.get?_insert_of_ne hne).trans hk, hkf⟩
    · obtain rfl := List.mem_singleton.1 hm
      exact ⟨j, Registry.get?_insert_self _ j, hj⟩
  · have hdet : (d.enqueue task j).detached = d.detached := by rw [he]
    rw [hdet] at hs
    rcases List.mem_cons.1 (hp.mem_iff.1 hm) with rfl | hm
    · rw [hd] at hs
      cases hs
    · exact h.detached id hs hm

theorem cancel (h : d.Engaged) (hn : n < d.fresh)
    (hq : ∀ p ∈ d.queue.toList, d.handles.lookup p.job.id ≠ some n) :
    { d with cancelled := n :: d.cancelled, wakeup := true }.Engaged := by
  refine { h with cancelled_lt := fun m hm ↦ ?_, queued := fun p hp m hm ↦ ?_ }
  · rcases List.mem_cons.1 hm with rfl | hm
    · exact hn
    · exact h.cancelled_lt m hm
  · obtain ⟨hc, hl⟩ := h.queued p hp m hm
    refine ⟨fun hc' ↦ ?_, hl⟩
    rcases List.mem_cons.1 hc' with rfl | hc'
    · exact hq p hp hm
    · exact hc hc'

theorem looked_of_look (h : d.Engaged) (hw : d.WellFormed) (hl : d.look now = some (d', b)) :
    ∃ p queue n, queue.Valid ∧ d.queue.toList = p :: queue.toList ∧
      d.handles.lookup p.job.id = some n ∧ Looked now p queue n d d' b := by
  obtain ⟨p, queue, -, hq, hl⟩ := look_cases hl
  obtain ⟨hv, hlist⟩ := hw.queue.dequeue_eq_some hq
  obtain ⟨n, hn⟩ := h.lookup_queued (p := p) (by rw [hlist]; exact List.mem_cons_self)
  have he : d.handleFor p.job.id = (n, d) := by simp only [handleFor, hn]
  rw [he] at hl
  exact ⟨p, queue, n, hv, hlist, hn, hl⟩

theorem look (h : d.Engaged) (hw : d.WellFormed) (hl : d.look now = some (d', b)) :
    d'.Engaged := by
  obtain ⟨p, queue, n, hv, hlist, hn, hl⟩ := h.looked_of_look hw hl
  have hsettle (error : String) : ({ d with queue }.finalize (p.job.fail now error)).Engaged := by
    refine h.settle (.of_eq ?_) ?_ (fun _ ha ↦ ha) rfl rfl rfl rfl rfl rfl
    · simp only [active, Dispatcher.queued, runningIds, hlist, List.map_cons, List.cons_append]
      rfl
    · rw [hlist]
      exact List.subset_cons_self _ _
  cases hl with
  | cancelled => exact hsettle _
  | launched => exact h.launch hlist hn _ now
  | postponed =>
    refine h.keep ?_ rfl rfl rfl rfl rfl (fun _ hs ↦ hs) fun _ _ hu ↦ hu
    rw [(hv.enqueue p).2, hlist]
    exact List.perm_append_singleton _ _
  | skipped => exact hsettle _

theorem lookAll (h : d.Engaged) (hw : d.WellFormed) (now : Instant) (n : Nat) (settled : Bool) :
    (lookAll now n d settled).1.Engaged ∧ (lookAll now n d settled).1.WellFormed := by
  apply lookAll_induction (motive := fun e ↦ e.Engaged ∧ e.WellFormed)
  · exact fun e e' b he hl ↦ ⟨he.1.look he.2 hl, he.2.look hl⟩
  · exact ⟨h, hw⟩

theorem dispatchReady (h : d.Engaged) (hw : d.WellFormed) (now : Instant) :
    (d.dispatchReady now).Engaged := by
  obtain ⟨hl, -⟩ := h.lookAll hw now d.queue.size false
  obtain ⟨wakeup, he⟩ := dispatchReady_eq d now
  rw [he]
  exact { hl with }

theorem endAttempt (h : d.Engaged) (hw : d.WellFormed) {a : Attempt} (ha : a ∈ d.attempts)
    (hj : j.id = a.id) : (d.endAttempt a j).Engaged := by
  obtain ⟨xs, ys, he, hf⟩ := hw.attempts_filter ha
  let others : Dispatcher τ := { d with
    running := d.running - 1
    attempts := d.attempts.filter (·.ticket ≠ a.ticket) }
  have hp : d.active.Perm (j.id :: others.active) := by
    have ho : others.attempts = xs ++ ys := hf
    simp only [active, Dispatcher.queued, runningIds, ho, he, hj, List.map_append, List.map_cons]
    rw [← List.append_assoc, ← List.append_assoc]
    exact List.perm_middle
  have hend : (others.finalize j).Engaged :=
    h.settle hp (fun _ hq ↦ hq) (List.filter_subset_self _) rfl rfl rfl rfl rfl rfl
  exact { hend with }

theorem report (h : d.Engaged) (hw : d.WellFormed) (ticket : Nat) (j : Job) :
    (d.report ticket j).Engaged := by
  rcases report_cases d ticket j with he | ⟨a, ha, rfl, hj, ⟨-, he⟩ | ⟨-, he⟩⟩
  · rw [he]
    exact h
  · rw [he]
    exact h.endAttempt hw ha hj
  · rw [he]
    refine h.keep (.refl _) ?_ rfl rfl rfl rfl (fun _ hs ↦ hs) fun id hi hu ↦ ?_
    · simp only [noteLast, List.map_map]
      exact List.map_congr_left fun x _ ↦ by simp only [Function.comp_apply]; split <;> rfl
    · have hne : id ≠ j.id := by
        rintro rfl
        exact h.not_running hi (hj ▸ List.mem_map_of_mem ha)
      obtain ⟨k, hk, hkf⟩ := hu
      exact ⟨k, (Registry.get?_insert_of_ne hne).trans hk, hkf⟩

theorem taskOver (h : d.Engaged) (hw : d.WellFormed) (now : Instant) (ticket : Nat)
    (panicked : Bool) : (d.taskOver now ticket panicked).Engaged := by
  rcases taskOver_cases d now ticket panicked with he | ⟨a, ha, error, he⟩
  · rw [he]
    exact h
  · rw [he]
    exact h.endAttempt hw ha (hw.last_id a ha)

theorem handleStop_queued (h : d.Engaged) (hw : d.WellFormed) (hp : p ∈ d.queue.toList)
    (now : Instant) : ∃ as bs queue n, d.queue.toList = as ++ p :: bs ∧ queue.toList = as ++ bs ∧
      d.handles.lookup p.job.id = some n ∧ d.handleStop now p.job.id =
        { d with cancelled := n :: d.cancelled, wakeup := true, queue }.finalize
          (p.job.fail now Text.cancelledBeforeStart) := by
  obtain ⟨m, hm⟩ := h.lookup_queued hp
  rcases handleStop_cases d now p.job.id with ⟨hn, -⟩ | ⟨n, hn, ⟨hr, -⟩ | ⟨q, queue, hr, he⟩⟩
  · rw [hm] at hn
    cases hn
  · have hne := hw.queue.remove_eq_none_iff.1 hr p hp
    simp at hne
  · obtain ⟨-, hq, as, bs, hl, -, hl'⟩ := hw.queue.remove_eq_some hr
    have hmem : q ∈ d.queue.toList := by
      rw [hl]
      exact List.mem_append_right _ List.mem_cons_self
    obtain rfl := h.eq_of_queued hmem hp (by simpa using hq)
    exact ⟨as, bs, queue, n, hl, hl', hn, he⟩

theorem handleStop_running (h : d.Engaged) (hw : d.WellFormed) {a : Attempt}
    (ha : a ∈ d.attempts) (now : Instant) : d.handleStop now a.id =
      { d with cancelled := a.handle :: d.cancelled, wakeup := true } := by
  have hrun : a.id ∈ d.runningIds := List.mem_map_of_mem ha
  rcases handleStop_cases d now a.id with ⟨hn, -⟩ | ⟨n, hn, ⟨-, he⟩ | ⟨q, queue, hr, -⟩⟩
  · rw [h.running a ha] at hn
    cases hn
  · obtain rfl := Option.some.inj ((h.running a ha).symm.trans hn)
    exact he
  · obtain ⟨-, hq, as, bs, hl, -⟩ := hw.queue.remove_eq_some hr
    have hmem : q ∈ d.queue.toList := by
      rw [hl]
      exact List.mem_append_right _ List.mem_cons_self
    have hq : q.job.id = a.id := by simpa using hq
    exact absurd (hq ▸ hrun) (h.not_running (mem_queued hmem))

theorem delayNext (h : d.Engaged) (hw : d.WellFormed) : d.delayNext.2.Engaged := by
  unfold Dispatcher.delayNext
  cases hq : d.queue.delayNext with
  | none => exact h
  | some queue =>
    refine h.keep ?_ rfl rfl rfl rfl rfl (fun _ hs ↦ hs) fun _ _ hu ↦ hu
    obtain ⟨-, ⟨hl, -⟩ | ⟨p, p', rest, hl, hl'⟩⟩ := hw.queue.delayNext_eq_some hq
    · exact .of_eq hl
    · rw [hl, hl']
      exact List.Perm.swap p p' rest

theorem handleStop_idle (h : d.Engaged) (hi : id ∉ d.active) (now : Instant) :
    d.handleStop now id = d := by
  rw [Dispatcher.handleStop, h.lookup_eq_none hi]

theorem handleStop (h : d.Engaged) (hw : d.WellFormed) (now : Instant) (id : String) :
    (d.handleStop now id).Engaged := by
  by_cases hq : id ∈ d.queued
  · obtain ⟨p, hp, rfl⟩ := List.mem_map.1 hq
    obtain ⟨as, bs, queue, n, hl, hl', hn, he⟩ := h.handleStop_queued hw hp now
    have hperm : d.active.Perm (p.job.id :: { d with queue }.active) := by
      simp only [active, Dispatcher.queued, runningIds, hl, hl', List.map_append, List.map_cons,
        List.append_assoc, List.cons_append]
      exact List.perm_middle
    have hsub : queue.toList ⊆ d.queue.toList := by
      rw [hl, hl']
      exact ((List.sublist_cons_self p bs).append_left as).subset
    have hend : ({ d with queue }.finalize (p.job.fail now Text.cancelledBeforeStart)).Engaged :=
      h.settle hperm hsub (fun _ ha ↦ ha) rfl rfl rfl rfl rfl rfl
    have hlt := h.handle_lt _ n hn
    rw [he]
    refine hend.cancel (n := n) hlt fun q hq hs ↦ ?_
    have hs : (d.handles.filter (·.1 ≠ p.job.id)).lookup q.job.id = some n := hs
    rw [Lookup.lookup_filter_ne] at hs
    split at hs
    · cases hs
    · next hne => exact hne (h.apart _ _ _ hs hn)
  · by_cases hr : id ∈ d.runningIds
    · obtain ⟨a, ha, rfl⟩ := List.mem_map.1 hr
      rw [h.handleStop_running hw ha now]
      refine h.cancel (h.handle_lt _ _ (h.running a ha)) fun p hp hs ↦ ?_
      obtain he := h.apart _ _ _ hs (h.running a ha)
      exact hq (he ▸ mem_queued hp)
    · rw [h.handleStop_idle (by simp [active, hq, hr]) now]
      exact h

theorem enqueueAfter (h : d.Engaged) (hw : d.WellFormed) (hi : j.id ∉ d.active)
    (hd : d.detached.get? j.id = none) (now : Instant) (task : τ) (parent : String) :
    (d.enqueueAfter now task j parent).2.Engaged := by
  rcases enqueueAfter_cases hw.deps now task j parent with ⟨c, he⟩ | ⟨p, -, -, he⟩
  · rw [he]
    exact h
  · rw [he]
    exact { h.enqueue hw.queue task hi hd with }

theorem eraseDetached (h : d.Engaged) (id : String) :
    { d with detached := d.detached.erase id }.Engaged := by
  refine h.keep (.refl _) rfl rfl rfl rfl rfl (fun id' hs ↦ ?_) fun _ _ hu ↦ hu
  rw [Registry.get?_erase] at hs
  split at hs
  · cases hs
  · exact hs

theorem restart (h : d.Engaged) (hw : d.WellFormed) (now : Instant) (j : Job) :
    (d.restart now j).2.Engaged := by
  rcases restart_cases d now j with ⟨c, he⟩ | ⟨task, current, -, -, hl, -, he⟩
  · rw [he]
    exact h
  · have hi : current.id ∉ d.active := by
      rw [← h.handle_iff, hl]
      simp
    have hd := h.eraseDetached current.id
    rw [he]
    exact { hd.enqueue (j := current.again now) hw.queue task hi
      (Registry.get?_erase_self _ _) with }

theorem refuse (h : d.Engaged) (hd : (d.detached.get? j.id).isSome = true) (now : Instant)
    (error : String) : { d with
      detached := d.detached.erase j.id
      registry := d.registry.insert (j.fail now error) }.Engaged := by
  refine (h.eraseDetached j.id).keep (.refl _) rfl rfl rfl rfl rfl (fun _ hs ↦ hs) ?_
  rintro id hi ⟨k, hk, hkf⟩
  have hne : id ≠ (j.fail now error).id := by
    rintro rfl
    exact h.detached j.id hd (List.mem_append_left _ hi)
  exact ⟨k, (Registry.get?_insert_of_ne hne).trans hk, hkf⟩

theorem resume (h : d.Engaged) (hw : d.WellFormed) (now : Instant) : (d.resume now).2.Engaged := by
  apply hw.resume_keeps (motive := Engaged)
  · exact fun e j hw h ↦ h.restart hw now j
  · exact fun e j error _ h hd ↦ h.refuse hd now error
  · exact h

theorem forget (h : d.Engaged) (hu : ¬ d.Unfinished id) : (d.forget id).Engaged := by
  refine h.keep (.refl _) rfl rfl rfl rfl rfl (fun _ hs ↦ hs) fun id' _ hu' ↦ ?_
  have hne : id' ≠ id := by
    rintro rfl
    exact hu hu'
  obtain ⟨k, hk, hkf⟩ := hu'
  exact ⟨k, (Registry.get?_erase ..).trans ((if_neg hne).trans hk), hkf⟩

theorem clearIfFinished (h : d.Engaged) (id : String) : (d.clearIfFinished id).2.Engaged := by
  rcases clearIfFinished_cases d id with he | ⟨j, hj, hf, he⟩
  · rw [he]
    exact h
  · rw [he]
    exact h.forget (not_unfinished hj hf)

theorem pruneBefore (h : d.Engaged) (hw : d.WellFormed) (cutoff : Instant) :
    (d.pruneBefore cutoff).2.Engaged := by
  have hkeep : (d.pruneBefore cutoff).2.Engaged ∧
      ∀ id, (d.pruneBefore cutoff).2.Unfinished id → d.Unfinished id := by
    apply pruneBefore_induction
      (motive := fun e ↦ e.Engaged ∧ ∀ id, e.Unfinished id → d.Unfinished id)
    · rintro e j hj ⟨he, hu⟩
      obtain ⟨hj, hf⟩ := List.mem_filter.1 hj
      have hfin := not_unfinished (hw.registry.get?_of_mem_jobs hj) (Bool.and_eq_true_iff.1 hf).1
      refine ⟨he.forget fun hu' ↦ hfin (hu j.id hu'), fun id hu' ↦ hu id ?_⟩
      obtain ⟨k, hk, hkf⟩ := hu'
      have hk : (e.registry.erase j.id).get? id = some k := hk
      rw [Registry.get?_erase] at hk
      split at hk
      · cases hk
      · exact ⟨k, hk, hkf⟩
    · exact ⟨h, fun _ hu ↦ hu⟩
  exact hkeep.1

end Engaged

theorem Run.engaged (h : Run NewIds past d) : d.Engaged := by
  induction h with
  | start processors config runners => exact engaged_takeUp processors config runners []
  | @step past d now o hrun ho ih =>
    have hw := hrun.wellFormed
    cases o with
    | load s fs =>
      obtain ⟨rfl, -⟩ := ho
      obtain ⟨processors, config, runners, rfl⟩ := hrun.eq_create
      exact engaged_takeUp processors config runners _
    | enqueue task j =>
      obtain ⟨hi, hd⟩ := hrun.idle_of_not_used ho
      exact ih.enqueue hw.queue task hi hd
    | enqueueAfter task j parent =>
      obtain ⟨hi, hd⟩ := hrun.idle_of_not_used ho
      exact ih.enqueueAfter hw hi hd now task parent
    | dispatchReady => exact ih.dispatchReady hw now
    | report ticket j => exact ih.report hw ticket j
    | taskOver ticket panicked => exact ih.taskOver hw now ticket panicked
    | handleStop id => exact ih.handleStop hw now id
    | restart j => exact ih.restart hw now j
    | resume => exact ih.resume hw now
    | clearIfFinished id => exact ih.clearIfFinished id
    | prune age =>
      rcases prune_cases d now age with he | ⟨cutoff, he⟩
      · rw [he]
        exact ih
      · rw [he]
        exact ih.pruneBefore hw cutoff
    | delayNext => exact ih.delayNext hw

theorem enqueue_cancelled (d : Dispatcher τ) (task : τ) (j : Job) :
    (d.enqueue task j).cancelled = d.cancelled := by
  unfold enqueue
  rcases handleFor_cases d j.id with ⟨n, -, he⟩ | ⟨-, he⟩
  · rw [he]
  · rw [he]

theorem restart_cancelled (d : Dispatcher τ) (now : Instant) (j : Job) :
    (d.restart now j).2.cancelled = d.cancelled := by
  rcases restart_cases d now j with ⟨c, he⟩ | ⟨task, current, -, -, -, -, he⟩
  · rw [he]
  · rw [he]
    exact enqueue_cancelled _ task _

/-- What is launched was not cancelled before. -/
def Heeds (d d' : Dispatcher τ) : Prop :=
  ∃ ls, d'.launches = d.launches ++ ls ∧ ∀ l ∈ ls, d.isCancelled l.attempt.handle = false

theorem Heeds.of_eq (h : d'.launches = d.launches) : Heeds d d' := by
  refine ⟨[], ?_, fun l hl ↦ by cases hl⟩
  rw [h, List.append_nil]

theorem isCancelled_eq_false : d.isCancelled n = false ↔ n ∉ d.cancelled := by simp [isCancelled]

theorem Heeds.trans (h : Heeds d d') (hc : d.cancelled ⊆ d'.cancelled) (h' : Heeds d' e) :
    Heeds d e := by
  obtain ⟨ls, hls, hm⟩ := h
  obtain ⟨ls', hls', hm'⟩ := h'
  refine ⟨ls ++ ls', ?_, fun l hl ↦ ?_⟩
  · rw [hls', hls, List.append_assoc]
  · rcases List.mem_append.1 hl with hl | hl
    · exact hm l hl
    · have hn := isCancelled_eq_false.1 (hm' l hl)
      exact isCancelled_eq_false.2 fun hc' ↦ hn (hc hc')

theorem look_heeds (hl : d.look now = some (d', b)) :
    d'.cancelled = d.cancelled ∧ Heeds d d' := by
  obtain ⟨p, queue, -, -, hl⟩ := look_cases hl
  obtain ⟨handles, fresh, he, -⟩ := handleFor_eq d p.job.id
  rw [he] at hl
  cases hl with
  | launched hr hc =>
    refine ⟨rfl, _, rfl, fun l hm ↦ ?_⟩
    obtain rfl := List.mem_singleton.1 hm
    exact hc
  | cancelled | postponed | skipped => exact ⟨rfl, .of_eq rfl⟩

theorem dispatchReady_heeds (d : Dispatcher τ) (now : Instant) :
    (d.dispatchReady now).cancelled = d.cancelled ∧ Heeds d (d.dispatchReady now) := by
  have hlook (e e' : Dispatcher τ) (b : Bool) (h : e.cancelled = d.cancelled ∧ Heeds d e)
      (hl : e.look now = some (e', b)) : e'.cancelled = d.cancelled ∧ Heeds d e' := by
    obtain ⟨hc, hf⟩ := look_heeds hl
    exact ⟨hc.trans h.1, h.2.trans (by rw [h.1]; exact List.Subset.refl _) hf⟩
  have hl := lookAll_induction hlook d.queue.size ⟨rfl, .of_eq rfl⟩ false
  obtain ⟨wakeup, he⟩ := dispatchReady_eq d now
  rw [he]
  exact hl

theorem cancelled_perform (hw : d.WellFormed) (now : Instant) (ho : ∀ id, o ≠ .handleStop id) :
    (d.perform now o).cancelled = d.cancelled := by
  cases o with
  | load s fs =>
    obtain ⟨registry, detached, he⟩ := takeUp_eq (s.loadOrEmpty fs) d
    change (d.takeUp (s.loadOrEmpty fs)).cancelled = _
    rw [he]
  | enqueue task j => exact enqueue_cancelled d task j
  | enqueueAfter task j parent =>
    rcases enqueueAfter_cases hw.deps now task j parent with ⟨c, he⟩ | ⟨p, -, -, he⟩
    · rw [perform, he]
    · rw [perform, he]
      exact enqueue_cancelled d task j
  | dispatchReady => exact (dispatchReady_heeds d now).1
  | report ticket j =>
    rcases report_cases d ticket j with he | ⟨a, -, -, -, ⟨-, he⟩ | ⟨-, he⟩⟩
    · rw [perform, he]
    · rw [perform, he]
      rfl
    · rw [perform, he]
      rfl
  | taskOver ticket panicked =>
    rcases taskOver_cases d now ticket panicked with he | ⟨a, -, error, he⟩
    · rw [perform, he]
    · rw [perform, he]
      rfl
  | handleStop id => exact absurd rfl (ho id)
  | restart j => exact restart_cancelled d now j
  | resume =>
    apply hw.resume_keeps (motive := fun e ↦ e.cancelled = d.cancelled)
    · exact fun e j _ h ↦ (restart_cancelled e now j).trans h
    · exact fun e j error _ h _ ↦ h
    · rfl
  | clearIfFinished id =>
    rcases clearIfFinished_cases d id with he | ⟨j, -, -, he⟩
    · rw [perform, he]
    · rw [perform, he]
      rfl
  | prune age =>
    rcases prune_cases d now age with he | ⟨cutoff, he⟩
    · rw [he]
    · rw [he]
      apply pruneBefore_induction (motive := fun e ↦ e.cancelled = d.cancelled) cutoff
      · exact fun _ _ _ h ↦ h
      · rfl
  | delayNext =>
    obtain ⟨queue, he⟩ := delayNext_eq d
    rw [perform, he]

theorem cancelled_subset (hw : d.WellFormed) (now : Instant) (o : Operation τ) :
    d.cancelled ⊆ (d.perform now o).cancelled := by
  by_cases ho : ∃ id, o = .handleStop id
  · obtain ⟨id, rfl⟩ := ho
    rcases handleStop_cases d now id with ⟨-, he⟩ | ⟨n, -, ⟨-, he⟩ | ⟨p, queue, -, he⟩⟩
    · rw [perform, he]
      exact List.Subset.refl _
    · rw [perform, he]
      exact List.subset_cons_self n d.cancelled
    · rw [perform, he]
      exact List.subset_cons_self n d.cancelled
  · rw [cancelled_perform hw now fun id he ↦ ho ⟨id, he⟩]
    exact List.Subset.refl _

theorem perform_heeds (hw : d.WellFormed) (now : Instant) (o : Operation τ) :
    Heeds d (d.perform now o) := by
  by_cases hp : o = .dispatchReady
  · subst hp
    exact (dispatchReady_heeds d now).2
  · exact .of_eq (hw.launches_eq now hp)

theorem Run.heeds_later {s : Step τ} (h : Run NewIds (later ++ s :: earlier) d) :
    Heeds (s.before.perform s.now s.operation) d := by
  have hkeep : (s.before.perform s.now s.operation).cancelled ⊆ d.cancelled ∧
      Heeds (s.before.perform s.now s.operation) d := by
    induction later generalizing d with
    | nil =>
      cases h
      exact ⟨List.Subset.refl _, .of_eq rfl⟩
    | cons s' later ih =>
      cases h with
      | @step _ e now o hrun ho =>
        obtain ⟨hc, hf⟩ := ih hrun
        have hw := hrun.wellFormed
        refine ⟨List.Subset.trans hc (cancelled_subset hw now o), ?_⟩
        exact hf.trans hc (perform_heeds hw now o)
  exact hkeep.2

/-- A submission that is neither queued nor running and was never launched. -/
structure Retired (ticket : Nat) (d : Dispatcher τ) : Prop where
  lt : ticket < d.fresh
  tickets : ticket ∉ d.tickets
  launches : ∀ l ∈ d.launches, l.attempt.ticket ≠ ticket

theorem underway_tickets (d : Dispatcher τ) : d.underway.map Prod.fst = d.tickets := by
  simp only [underway, Dispatcher.tickets, List.map_append, List.map_map]
  rfl

/-- A ticket that was given out, and whose submission has ended. -/
structure Spent (ticket : Nat) (d : Dispatcher τ) : Prop where
  lt : ticket < d.fresh
  ended : ticket ∉ d.tickets

theorem Spent.effect {ticket : Nat} {ev : Event τ} (h : Spent ticket d)
    (heff : Effect now d ev d') : Spent ticket d' := by
  refine ⟨Nat.lt_of_lt_of_le h.lt heff.fresh, fun ht ↦ ?_⟩
  have hu := heff.underway.map Prod.fst
  simp only [List.map_append, underway_tickets, List.map_map] at hu
  rcases List.mem_append.1 (hu.mem_iff.2 (List.mem_append_right _ ht)) with ht | ht
  · exact h.ended ht
  · obtain ⟨p, hp, rfl⟩ := List.mem_map.1 ht
    have hge := Books.fresh_le_of_entry heff (Option.mem_toList.1 hp)
    exact absurd h.lt (Nat.not_lt.2 hge)

theorem Retired.effect {ticket : Nat} {ev : Event τ} (h : Retired ticket d)
    (heff : Effect now d ev d') : Retired ticket d' := by
  obtain ⟨hlt, hended⟩ := Spent.effect ⟨h.lt, h.tickets⟩ heff
  refine ⟨hlt, hended, fun l hl ↦ ?_⟩
  rw [heff.launches] at hl
  rcases List.mem_append.1 hl with hl | hl
  · exact h.launches l hl
  · obtain rfl := Event.eq_launched (Option.mem_toList.1 hl)
    obtain ⟨p, hp, -, handle, rfl⟩ := heff.guard
    rintro rfl
    exact h.tickets (List.mem_append_left _ (List.mem_map_of_mem hp))

theorem Run.retired_later {s : Step τ} {ticket : Nat} (h : Run NewIds (later ++ s :: earlier) d)
    (hs : Retired ticket (s.before.perform s.now s.operation)) : Retired ticket d := by
  induction later generalizing d with
  | nil =>
    cases h
    exact hs
  | cons s' later ih =>
    cases h with
    | @step _ e now o hrun ho =>
      have hload : ∀ s fs, o ≠ .load s fs := by
        rintro s fs rfl
        simpa using ho.1
      obtain ⟨events, ht, -⟩ := hrun.wellFormed.unfolds now hload
      exact ht.keeps (fun _ _ _ _ hr heff ↦ hr.effect heff) (ih hrun)

/-- What a stop request does to a queued job. -/
structure TakenOut (d : Dispatcher τ) (now : Instant) (p : Pending τ) (e : Dispatcher τ) :
    Prop where
  order : ∃ as bs, d.queue.toList = as ++ p :: bs ∧ e.queue.toList = as ++ bs
  registry : e.registry = d.registry.insert (p.job.fail now Text.cancelledBeforeStart)
  notices : e.notices = d.notices ++ [p.job.fail now Text.cancelledBeforeStart]
  attempts : e.attempts = d.attempts
  spared : ∀ a ∈ d.attempts, e.isCancelled a.handle = d.isCancelled a.handle

theorem Engaged.takenOut (h : d.Engaged) (hw : d.WellFormed) (hp : p ∈ d.queue.toList)
    (now : Instant) : TakenOut d now p (d.handleStop now p.job.id) := by
  obtain ⟨as, bs, queue, n, hl, hl', hn, he⟩ := h.handleStop_queued hw hp now
  rw [he]
  refine ⟨⟨as, bs, hl, hl'⟩, rfl, rfl, rfl, fun a ha ↦ ?_⟩
  have hne : a.handle ≠ n := by
    rintro rfl
    have hid := h.apart _ _ _ hn (h.running a ha)
    exact h.not_running (mem_queued hp) (hid ▸ List.mem_map_of_mem ha)
  have hb : (a.handle == n) = false := by simpa using hne
  change List.contains (n :: d.cancelled) a.handle = _
  rw [List.contains_cons, hb]
  rfl

theorem Run.retired (h : Run NewIds past d) (hp : p ∈ d.queue.toList) (now : Instant) :
    Retired p.ticket (d.handleStop now p.job.id) := by
  have hw := h.wellFormed
  have hb := h.books_of_load fun _ _ _ _ ho ↦ ho.1
  obtain ⟨as, bs, queue, n, hl, hl', -, he⟩ := h.engaged.handleStop_queued hw hp now
  have hn := hw.tickets_nodup
  simp only [tickets, hl, List.map_append, List.map_cons, List.append_assoc, List.cons_append]
    at hn
  rw [he]
  refine ⟨hw.tickets_lt _ (List.mem_append_left _ (List.mem_map_of_mem hp)), ?_, fun l hm ↦ ?_⟩
  · have ht := (List.nodup_cons.1 (List.nodup_middle.1 hn)).1
    simpa only [tickets, finalize, dropHandle, hl', List.map_append, List.append_assoc] using ht
  · exact Ne.symm (hb.unqueued l hm p hp)

/-- A stop request hits one attempt at most. If it is queued, it ends at once, free slot or not, the
rest of the queue keeps its order, and the attempt is never launched. If it is running, its handle
is cancelled, which no other attempt ever has. An inactive job is left alone. Whatever is launched
has a handle that is not cancelled, and none that was cancelled before. -/
theorem stop_hits_one_attempt (h : Run NewIds past d) (now : Instant) :
    (∀ p ∈ d.queue.toList, TakenOut d now p (d.handleStop now p.job.id) ∧
      ∀ later e, Run NewIds (later ++ ⟨d, now, .handleStop p.job.id⟩ :: past) e →
        ∀ l ∈ e.launches, l.attempt.ticket ≠ p.ticket) ∧
    (∀ a ∈ d.attempts, d.handleStop now a.id =
        { d with cancelled := a.handle :: d.cancelled, wakeup := true } ∧
      (∀ a' ∈ d.attempts, a'.handle = a.handle → a' = a) ∧
      ∀ p ∈ d.queue.toList, d.handles.lookup p.job.id ≠ some a.handle) ∧
    (∀ id, id ∉ d.active → d.handleStop now id = d) ∧
    (d.launches.map (·.attempt.handle)).Nodup ∧
    (∀ o, ∃ ls, (d.perform now o).launches = d.launches ++ ls ∧
      ∀ l ∈ ls, (d.perform now o).isCancelled l.attempt.handle = false) ∧
    ∀ id later e, Run NewIds (later ++ ⟨d, now, .handleStop id⟩ :: past) e →
      ∃ ls, e.launches = d.launches ++ ls ∧
        ∀ l ∈ ls, (d.handleStop now id).isCancelled l.attempt.handle = false := by
  have hw := h.wellFormed
  have hen := h.engaged
  refine ⟨fun p hp ↦ ⟨hen.takenOut hw hp now, fun later e he ↦ ?_⟩,
    fun a ha ↦ ⟨hen.handleStop_running hw ha now, fun a' ha' he ↦ ?_, fun p hp hs ↦ ?_⟩,
    fun id hi ↦ hen.handleStop_idle hi now, hen.once, fun o ↦ ?_, fun id later e he ↦ ?_⟩
  · exact (he.retired_later (h.retired hp now)).launches
  · have hid := hen.apart _ _ _ (he ▸ hen.running a' ha') (hen.running a ha)
    exact List.inj_on_of_nodup_map (List.nodup_append.1 hen.nodup).2.1 ha' ha hid
  · have hid := hen.apart _ _ _ hs (hen.running a ha)
    exact hen.not_running (mem_queued hp) (hid ▸ List.mem_map_of_mem ha)
  · by_cases ho : o = .dispatchReady
    · subst ho
      obtain ⟨hc, ls, hls, hm⟩ := dispatchReady_heeds d now
      refine ⟨ls, hls, fun l hl ↦ ?_⟩
      rw [isCancelled, perform, hc]
      exact hm l hl
    · exact ⟨[], by rw [hw.launches_eq now ho, List.append_nil], fun l hl ↦ by cases hl⟩
  · have hls := he.heeds_later
    have hl : (d.handleStop now id).launches = d.launches :=
      hw.launches_eq (o := .handleStop id) now (by rintro ⟨⟩)
    rwa [Heeds, perform, hl] at hls

def sampleBusy : List (Step Unit) × Dispatcher Unit :=
  replay sampleInstant [] (create 1 { maxConcurrent := 1 } {})
    [.enqueue () (sampleJob "first"), .enqueue () (sampleJob "second"), .dispatchReady]

theorem sampleBusy_run : Run NewIds sampleBusy.1 sampleBusy.2 := by
  have h : Run NewIds [] (create 1 { maxConcurrent := 1 } ({} : Runners Unit)) := .start 1 _ _
  have h := h.step sampleInstant (.enqueue () (sampleJob "first"))
    (by unfold NewIds; decide +kernel)
  have h := h.step sampleInstant (.enqueue () (sampleJob "second"))
    (by unfold NewIds; decide +kernel)
  exact h.step sampleInstant .dispatchReady trivial

theorem stop_hits_one_attempt_sample :
    sampleBusy.2.freeSlots = 0 ∧ sampleBusy.2.queued = ["second"] ∧
    sampleBusy.2.runningIds = ["first"] ∧
    (∀ p ∈ sampleBusy.2.queue.toList,
      TakenOut sampleBusy.2 sampleInstant p (sampleBusy.2.handleStop sampleInstant p.job.id)) ∧
    (∀ a ∈ sampleBusy.2.attempts, sampleBusy.2.handleStop sampleInstant a.id =
      { sampleBusy.2 with cancelled := a.handle :: sampleBusy.2.cancelled, wakeup := true }) ∧
    sampleBusy.2.handleStop sampleInstant "third" = sampleBusy.2 := by
  obtain ⟨hq, hr, hi, -⟩ := stop_hits_one_attempt sampleBusy_run sampleInstant
  exact ⟨by decide +kernel, by decide +kernel, by decide +kernel, fun p hp ↦ (hq p hp).1,
    fun a ha ↦ (hr a ha).1, hi "third" (by decide +kernel)⟩

end JobEngine.Dispatcher
