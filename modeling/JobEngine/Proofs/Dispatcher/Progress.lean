import JobEngine.Proofs.Dispatcher.Coherence
import Mathlib.Order.WellFoundedSet

namespace JobEngine.Dispatcher

open DependencyGraph Relation

variable {τ : Type} {d d' : Dispatcher τ} {gone : String → Option Job} {now : Instant} {b : Bool}
  {id job parent : String} {p : Pending τ}

/-- A job has an edge to a parent that is pending. -/
def WaitsFor (d : Dispatcher τ) (job parent : String) : Prop :=
  ∃ e ∈ d.deps.edgesOf job, e.parent = parent ∧ e.finished = false

theorem exists_waitsFor (h : d.readiness id = .waiting) : ∃ parent, d.WaitsFor id parent := by
  rw [readiness_eq] at h
  split at h
  · cases h
  · split at h
    · next hw =>
      obtain ⟨e, he, hf⟩ := List.any_eq_true.1 hw
      exact ⟨e.parent, e, he, rfl, by simpa using hf⟩
    · cases h

theorem WaitsFor.mem_active (hs : d.Sound gone) (h : d.WaitsFor job parent) :
    parent ∈ d.active := by
  obtain ⟨e, he, rfl, hf⟩ := h
  obtain ⟨j, hj, hm⟩ := hs.coherent.mirror job e he
  have hjf : j.finished = false := hm.1.symm.trans hf
  cases hr : d.registry.get? e.parent with
  | none =>
    rw [hr, Option.none_or] at hj
    have := hs.coherent.finished _ j hr hj
    rw [hjf] at this
    cases this
  | some k =>
    rw [hr, Option.some_or, Option.some.injEq] at hj
    subst hj
    simpa using (hs.accounted.unfinished_iff e.parent).1 ⟨k, hr, hjf⟩

/-- Of finitely many jobs one waits for none of the others, as there is no cycle. -/
theorem exists_not_waitsFor (hw : d.deps.WellFormed) {S : Set String} (hf : S.Finite)
    (hne : S.Nonempty) : ∃ job ∈ S, ∀ parent ∈ S, ¬ d.WaitsFor job parent := by
  let r : String → String → Prop := fun parent job ↦ TransGen (Link d.deps.entries) job parent
  have : IsStrictOrder String r :=
    { irrefl := hw.acyclic
      trans := fun _ _ _ h h' ↦ TransGen.trans h' h }
  obtain ⟨⟨job, hj⟩, -, hmin⟩ := (hf.wellFoundedOn (r := r)).has_min Set.univ
    ⟨⟨hne.some, hne.some_mem⟩, trivial⟩
  refine ⟨job, hj, fun parent hp ⟨e, he, hep, _⟩ ↦ hmin ⟨parent, hp⟩ trivial ?_⟩
  exact .single (link_iff.2 ⟨e, he, hep⟩)

/-- A submission has left the queue: its attempt has begun, or its job has ended. -/
def Served (d : Dispatcher τ) (p : Pending τ) : Prop :=
  (∃ a ∈ d.attempts, a.ticket = p.ticket ∧ a.id = p.job.id) ∨
    ∃ j, d.registry.get? p.job.id = some j ∧ j.finished = true

theorem served_or_postponed {queue : Queue (Pending τ)} {n : Nat}
    (hl : Looked now p queue n d d' b) :
    d'.Served p ∨ d.readiness p.job.id = .waiting ∧ d' = { d with queue := queue.enqueue p } := by
  cases hl with
  | cancelled => exact .inl (.inr ⟨_, Registry.get?_insert_self _ (p.job.fail now _), rfl⟩)
  | launched =>
    exact .inl (.inl ⟨⟨p.ticket, p.job.id, n, p.job.touch now⟩, by simp [launch], rfl, rfl⟩)
  | postponed h => exact .inr ⟨h, rfl⟩
  | skipped => exact .inl (.inr ⟨_, Registry.get?_insert_self _ (p.job.fail now _), rfl⟩)

theorem Served.look (h : d.Served p) (hs : d.Sound gone) (hl : d.look now = some (d', b)) :
    d'.Served p := by
  obtain ⟨q, queue, n, -, hlist, -, hl⟩ := hs.accounted.looked_of_look hs.wellFormed hl
  rcases h with ⟨a, ha, hat⟩ | ⟨j, hj, hf⟩
  · refine .inl ⟨a, ?_, hat⟩
    cases hl with
    | cancelled => exact ha
    | launched => exact List.mem_append_left _ ha
    | postponed => exact ha
    | skipped => exact ha
  · have hne : p.job.id ≠ q.job.id := by
      intro he
      have hu : d.Unfinished q.job.id :=
        (hs.accounted.unfinished_iff _).2 (by simp [active, queued, hlist])
      exact not_unfinished hj hf (he ▸ hu)
    have hkeep (k : Job) (hk : k.id = q.job.id) :
        (d.registry.insert k).get? p.job.id = some j := by
      rw [Registry.get?_insert_of_ne (hk ▸ hne), hj]
    refine .inr ⟨j, ?_, hf⟩
    cases hl with
    | cancelled => exact hkeep _ rfl
    | launched => exact hkeep _ rfl
    | postponed => exact hj
    | skipped => exact hkeep _ rfl

theorem Served.lookAll (h : d.Served p) (hs : d.Sound gone) (n : Nat) (settled : Bool) :
    (lookAll now n d settled).1.Served p :=
  (lookAll_induction (motive := fun d ↦ d.Sound gone ∧ d.Served p)
    (fun _ _ _ h hl ↦ ⟨h.1.look hl, h.2.look h.1 hl⟩) n ⟨hs, h⟩ settled).2

/-- Looks that postpone the entries in front keep readiness and slots as they are, so the entry
that need not wait is reached unless another one is served before it. -/
theorem exists_served (hs : d.Sound gone) (now : Instant) (hfree : 0 < d.freeSlots) {n : Nat}
    (hp : p ∈ d.queue.toList.take n) (hr : d.readiness p.job.id ≠ .waiting) (settled : Bool) :
    ∃ q ∈ d.queue.toList, (lookAll now n d settled).1.Served q := by
  induction n generalizing d settled with
  | zero => simp at hp
  | succ n ih =>
    cases hlook : d.look now with
    | none =>
      exfalso
      rcases look_eq_none hlook with h | h
      · omega
      · rw [hs.wellFormed.queue.dequeue_eq_none_iff] at h
        simp [h] at hp
    | some x =>
      obtain ⟨d', b⟩ := x
      have hs' := hs.look hlook
      have hn : Dispatcher.lookAll now (n + 1) d settled =
          Dispatcher.lookAll now n d' (settled || b) := by
        rw [Dispatcher.lookAll, hlook]
      obtain ⟨q, queue, k, hv, hlist, -, hl⟩ := hs.accounted.looked_of_look hs.wellFormed hlook
      rw [hn, hlist]
      rcases served_or_postponed hl with hq | ⟨hq, rfl⟩
      · exact ⟨q, List.mem_cons_self, hq.lookAll hs' n _⟩
      · have hlist' := (hv.enqueue q).2
        rw [hlist, List.take_succ_cons] at hp
        rcases List.mem_cons.1 hp with rfl | hp
        · exact absurd hq hr
        have hp : p ∈ (queue.enqueue q).toList.take n := by
          rw [hlist', List.take_append]
          exact List.mem_append_left _ hp
        obtain ⟨q', hq', h⟩ := ih hs' hfree hp hr (settled || b)
        refine ⟨q', ?_, h⟩
        rw [hlist'] at hq'
        exact (List.perm_append_singleton q queue.toList).mem_iff.1 hq'

theorem exists_not_waiting (hs : d.Sound gone) (hq : d.queue.toList ≠ []) (ha : d.attempts = []) :
    ∃ p ∈ d.queue.toList, d.readiness p.job.id ≠ .waiting := by
  have hne : d.queued ≠ [] := by rwa [queued, ne_eq, List.map_eq_nil_iff]
  obtain ⟨job, hj, hmin⟩ := exists_not_waitsFor hs.wellFormed.deps (List.finite_toSet d.queued)
    (List.exists_mem_of_ne_nil _ hne)
  obtain ⟨p, hp, rfl⟩ := List.mem_map.1 hj
  refine ⟨p, hp, fun hw ↦ ?_⟩
  obtain ⟨parent, hw⟩ := exists_waitsFor hw
  have hparent : parent ∈ d.queued := by
    simpa [active, runningIds, ha] using hw.mem_active hs
  exact hmin parent hparent hw

theorem Served.not_mem_queued (h : d.Served p) (hs : d.Sound gone) :
    p.job.id ∉ d.queued ∧ ((∃ a ∈ d.attempts, a.ticket = p.ticket ∧ a.id = p.job.id) ∨
      p.job.id ∉ d.runningIds ∧ ∃ j, d.registry.get? p.job.id = some j ∧ j.finished = true) := by
  rcases h with ⟨a, ha, ht, hi⟩ | ⟨j, hj, hf⟩
  · refine ⟨fun hm ↦ ?_, .inl ⟨a, ha, ht, hi⟩⟩
    have hn := (List.nodup_append.1 (List.nodup_append.1 hs.accounted.nodup).1).2.2
    exact hn _ hm _ (List.mem_map_of_mem ha) hi.symm
  · have hm : p.job.id ∉ d.active ++ [] := by
      rw [← hs.accounted.unfinished_iff]
      exact not_unfinished hj hf
    simp only [active, List.append_nil, List.mem_append, not_or] at hm
    exact ⟨hm.1, .inr ⟨hm.2, j, hj, hf⟩⟩

/-- A pass that starts while jobs are queued and none is running launches one of them or ends it.
A job waits for queued and running jobs only, and among queued jobs there is always one that waits
for none of the others. -/
theorem pass_serves {past : List (Step τ)} (h : Run Proper past d) (now : Instant) :
    (0 < d.queue.size → d.running = 0 → ∃ p ∈ d.queue.toList,
      p.job.id ∉ (d.dispatchReady now).queued ∧
        ((∃ a ∈ (d.dispatchReady now).attempts, a.ticket = p.ticket ∧ a.id = p.job.id) ∨
          p.job.id ∉ (d.dispatchReady now).runningIds ∧
            ∃ j, (d.dispatchReady now).registry.get? p.job.id = some j ∧ j.finished = true)) ∧
    (∀ job, d.readiness job = .waiting → ∃ parent, d.WaitsFor job parent) ∧
    (∀ job parent, d.WaitsFor job parent → parent ∈ d.active) ∧
    ∀ S : Set String, S.Nonempty → (∀ job ∈ S, job ∈ d.queued) →
      ∃ job ∈ S, ∀ parent ∈ S, ¬ d.WaitsFor job parent := by
  have hs := h.sound
  refine ⟨fun hq hr ↦ ?_, fun job ↦ exists_waitsFor, fun job parent hw ↦ hw.mem_active hs,
    fun S hne hS ↦ ?_⟩
  · have hw := hs.wellFormed
    have hn : d.attempts = [] := List.length_eq_zero_iff.1 (hw.running_eq.symm.trans hr)
    have hne : d.queue.toList ≠ [] := List.length_pos_iff.1 hq
    obtain ⟨p, hp, hready⟩ := exists_not_waiting hs hne hn
    have hfree : 0 < d.freeSlots := by
      have hslots := hw.slots_eq
      rw [hn, List.length_nil, capacity] at hslots
      omega
    have hp : p ∈ d.queue.toList.take d.queue.size := by
      rwa [Queue.size, List.take_length]
    obtain ⟨q, hq, hserved⟩ := exists_served hs now hfree hp hready false
    refine ⟨q, hq, Served.not_mem_queued ?_ (hs.dispatchReady now)⟩
    rcases dispatchReady_cases d now with he | he
    · rwa [he]
    · rw [he]
      exact hserved
  · exact exists_not_waitsFor hs.wellFormed.deps
      ((List.finite_toSet d.queued).subset hS) hne

theorem pass_serves_sample :
    sample.2.queued = ["second"] ∧ ∃ p ∈ sample.2.queue.toList,
      p.job.id ∉ (sample.2.dispatchReady sampleInstant).queued := by
  obtain ⟨p, hp, hn, -⟩ :=
    (pass_serves sample_run sampleInstant).1 (by decide +kernel) (by decide +kernel)
  exact ⟨by decide +kernel, p, hp, hn⟩

end JobEngine.Dispatcher
