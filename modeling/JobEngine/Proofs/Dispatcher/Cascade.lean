import JobEngine.Proofs.Dispatcher.Lineage

namespace JobEngine.Dispatcher

open DependencyGraph Relation

variable {τ : Type} {d d' m : Dispatcher τ} {now : Instant} {b settled : Bool} {n : Nat}
  {id job parent : String} {p : Pending τ} {s : Step τ} {earlier passes : List (Step τ)}

def Failed (d : Dispatcher τ) (id : String) : Prop :=
  ∃ j, d.registry.get? id = some j ∧ j.failed = true

def Step.settles (s : Step τ) : Bool := (lookAll s.now s.before.queue.size s.before false).2

/-- A look takes out `p` because a parent has failed. -/
structure Skips (d : Dispatcher τ) (p : Pending τ) : Prop where
  slot : 0 < d.freeSlots
  head : ∃ queue, d.queue.dequeue = some (p, queue)
  live : d.isCancelled (d.handleFor p.job.id).1 = false
  failed : d.readiness p.job.id = .parentFailed

/-- A pass over the queue of `d` takes out `p` when it is in state `m`. -/
def SkipsAt (d : Dispatcher τ) (now : Instant) (m : Dispatcher τ) (p : Pending τ) : Prop :=
  ∃ n < d.queue.size, (lookAll now n d false).1 = m ∧ m.Skips p

theorem lookAll_settled (now : Instant) (n : Nat) (d : Dispatcher τ) :
    (lookAll now n d true).2 = true := by
  induction n generalizing d with
  | zero => rfl
  | succ n ih =>
    rw [lookAll]
    cases d.look now with
    | none => rfl
    | some x => exact ih x.1

theorem look_quiet_cases (hw : d.WellFormed) (hl : d.look now = some (d', false)) :
    ∃ p rest, d.queue.toList = p :: rest ∧ d'.deps = d.deps ∧
      (d'.queue.toList = rest ∨
        d'.queue.toList = rest ++ [p] ∧ d.readiness p.job.id = .waiting) := by
  obtain ⟨p, queue, -, hq, hl⟩ := look_cases hl
  obtain ⟨hv, hlist⟩ := hw.queue.dequeue_eq_some hq
  obtain ⟨handles, fresh, he, -⟩ := handleFor_eq d p.job.id
  rw [he] at hl
  refine ⟨p, queue.toList, hlist, ?_⟩
  cases hl with
  | launched => exact ⟨rfl, .inl rfl⟩
  | postponed hr => exact ⟨rfl, .inr ⟨(hv.enqueue p).2, hr⟩⟩

theorem readiness_congr (h : d'.deps = d.deps) (id : String) :
    d'.readiness id = d.readiness id := by
  rw [readiness_eq, readiness_eq, h]

/-- After looks that end no job, with a slot free, the queue waits if the entries behind the looks
do. -/
theorem lookAll_waiting (hw : d.WellFormed) (hs : (lookAll now n d settled).2 = false)
    (hr : ∀ p ∈ d.queue.toList.drop n, d.readiness p.job.id = .waiting) :
    (lookAll now n d settled).1.freeSlots = 0 ∨
      ∀ p ∈ (lookAll now n d settled).1.queue.toList,
        (lookAll now n d settled).1.readiness p.job.id = .waiting := by
  induction n generalizing d settled with
  | zero => exact .inr hr
  | succ n ih =>
    rw [lookAll] at hs ⊢
    cases hl : d.look now with
    | none =>
      rcases look_eq_none hl with hf | hq
      · exact .inl hf
      · rw [hw.queue.dequeue_eq_none_iff] at hq
        refine .inr fun p hp ↦ ?_
        change p ∈ d.queue.toList at hp
        rw [hq] at hp
        cases hp
    | some x =>
      obtain ⟨d', b⟩ := x
      rw [hl] at hs
      cases b with
      | true =>
        change (lookAll now n d' (settled || true)).2 = false at hs
        rw [Bool.or_true, lookAll_settled] at hs
        cases hs
      | false =>
        obtain ⟨p, rest, hlist, hd, hq⟩ := look_quiet_cases hw hl
        rw [hlist, List.drop_succ_cons] at hr
        refine ih (hw.look hl) hs fun q hq' ↦ ?_
        rw [readiness_congr hd]
        rcases hq with hq | ⟨hq, hp⟩
        · rw [hq] at hq'
          exact hr q hq'
        · rw [hq, List.drop_append] at hq'
          rcases List.mem_append.1 hq' with hq' | hq'
          · exact hr q hq'
          · rw [List.mem_singleton.1 (List.mem_of_mem_drop hq')]
            exact hp

theorem dispatchReady_waiting (hw : d.WellFormed)
    (hs : (lookAll now d.queue.size d false).2 = false)
    (hf : 0 < (d.dispatchReady now).freeSlots) :
    ∀ p ∈ (d.dispatchReady now).queue.toList,
      (d.dispatchReady now).readiness p.job.id = .waiting := by
  have he : d.dispatchReady now = (lookAll now d.queue.size d false).1 := by
    simp [dispatchReady, hs]
  rw [he] at hf ⊢
  refine (lookAll_waiting hw hs ?_).resolve_left (Nat.ne_of_gt hf)
  rw [Queue.size, List.drop_length]
  simp

namespace Lineage

/-- A job with a failed parent has neither run nor succeeded. As nobody in the queue has a failed
parent, the job has ended, and it has failed. -/
theorem failed_of_link (ht : d.Lineage)
    (hq : ∀ p ∈ d.queue.toList, d.readiness p.job.id = .waiting)
    (hl : Link d.deps.entries job parent) (hf : d.Failed parent) :
    d.Failed job ∧ job ∉ d.queued := by
  obtain ⟨k, hk, hkf⟩ := hf
  have hparent : ¬ d.Succeeded parent := by
    rintro ⟨k', hk', hs⟩
    rw [hk, Option.some.injEq] at hk'
    subst hk'
    simp [Job.failed, hs.1, hs.2] at hkf
  obtain ⟨e, he, rfl⟩ := link_iff.1 hl
  obtain ⟨hreg, k', hk', hek⟩ := ht.edge job e he
  rw [hk, Option.some.injEq] at hk'
  subst hk'
  have hqueued : job ∉ d.queued := by
    intro hi
    obtain ⟨p, hp, rfl⟩ := List.mem_map.1 hi
    have hr := hq p hp
    rw [readiness_eq, if_pos (List.any_eq_true.2 ⟨e, he, hek.failed hkf⟩)] at hr
    cases hr
  have hactive : job ∉ d.active := by
    intro hi
    rcases List.mem_append.1 hi with hi | hi
    · exact hqueued hi
    · exact hparent (ht.vouched job (.inl (ht.running job hi)) _ hl)
  obtain ⟨j, hj⟩ := Option.isSome_iff_exists.1 hreg
  have hjf := ht.idle job j hj hactive
  refine ⟨⟨j, hj, ?_⟩, hqueued⟩
  cases herr : j.error with
  | some error => simp [Job.failed, hjf, herr]
  | none => exact absurd (ht.vouched job (.inr ⟨j, hj, hjf, herr⟩) _ hl) hparent

theorem failed_of_ancestor (ht : d.Lineage)
    (hq : ∀ p ∈ d.queue.toList, d.readiness p.job.id = .waiting) {ancestor : String}
    (hl : TransGen (Link d.deps.entries) job ancestor) (hf : d.Failed ancestor) :
    d.Failed job ∧ job ∉ d.queued := by
  induction hl using TransGen.head_induction_on with
  | single hl => exact ht.failed_of_link hq hl hf
  | head hl _ ih => exact ht.failed_of_link hq hl ih.1

theorem not_hasRun (ht : d.Lineage) (hr : d.readiness id = .parentFailed) : ¬ d.HasRun id := by
  intro hrun
  have hready : d.readiness id = .ready := by
    rw [readiness_eq_ready_iff]
    intro e he
    obtain ⟨-, k, hk, hek⟩ := ht.edge id e he
    obtain ⟨k', hk', hs⟩ := ht.vouched id (.inl hrun) e.parent (link_iff.2 ⟨e, he, rfl⟩)
    rw [hk, Option.some.injEq] at hk'
    exact hek.succeeded.2 (hk' ▸ hs)
  rw [hr] at hready
  cases hready

end Lineage

theorem Event.proceeds_of_dispatch {ev : Event τ} (hc : (.dispatchReady : Operation τ).Causes ev) :
    ev.Proceeds := by
  cases ev with
  | quiet | launched | settled => trivial
  | submitted | restarted | updated | refused | forgotten => cases hc

theorem Skips.look (h : m.Skips p) (hw : m.WellFormed) (now : Instant) (hn : m.active.Nodup) :
    ∃ m', m.look now = some (m', true) ∧ p.job.id ∉ m'.active ∧ m'.launches = m.launches ∧
      m'.registry.get? p.job.id = some (p.job.fail now Text.parentJobFailed) := by
  have hc := h.live
  have hr := h.failed
  obtain ⟨queue, hq⟩ := h.head
  obtain ⟨-, hlist⟩ := hw.queue.dequeue_eq_some hq
  cases hl : m.look now with
  | none =>
    rcases look_eq_none hl with hf | hq'
    · exact absurd hf (Nat.ne_of_gt h.slot)
    · rw [hq] at hq'
      cases hq'
  | some x =>
    obtain ⟨m', b⟩ := x
    obtain ⟨p', queue', -, hq', hl⟩ := look_cases hl
    rw [hq] at hq'
    cases hq'
    obtain ⟨handles, fresh, he, -⟩ := handleFor_eq m p.job.id
    rw [he] at hl
    cases hl with
    | cancelled h => exact absurd (hc.symm.trans h) (by decide)
    | launched h => exact absurd (hr.symm.trans h) (by decide)
    | postponed h => exact absurd (hr.symm.trans h) (by decide)
    | skipped =>
      refine ⟨_, rfl, ?_, rfl, Registry.get?_insert_self _ (p.job.fail now _)⟩
      rw [active, queued, hlist, List.map_cons, List.cons_append] at hn
      exact (List.nodup_cons.1 hn).1

theorem lookAll_idle (hw : d.WellFormed) (hi : id ∉ d.active) (now : Instant) (n : Nat)
    (settled : Bool) :
    (lookAll now n d settled).1.registry.get? id = d.registry.get? id ∧
      id ∉ (lookAll now n d settled).1.active ∧
      ∀ l ∈ (lookAll now n d settled).1.launches, l.attempt.id = id → l ∈ d.launches := by
  obtain ⟨events, ht, hev⟩ := lookAll_trace hw now n settled
  exact ht.idle (fun ev hmem ↦ Event.proceeds_of_dispatch (hev ev hmem).1) hi

theorem Lineage.lookAll (ht : d.Lineage) (hw : d.WellFormed) (now : Instant) (n : Nat)
    (settled : Bool) : (lookAll now n d settled).1.Lineage := by
  obtain ⟨events, htrace, hev⟩ := lookAll_trace hw now n settled
  refine ht.trace htrace fun ev hmem ↦ ⟨Operation.not_submitted rfl (hev ev hmem).1, ?_⟩
  rintro id rfl
  exact (hev _ hmem).1

/-- The other looks of the pass leave alone what one of them has taken out of the queue. -/
theorem SkipsAt.stays (h : SkipsAt d now m p) (ht : d.Lineage) (hw : d.WellFormed) :
    (d.dispatchReady now).registry.get? p.job.id = some (p.job.fail now Text.parentJobFailed) ∧
      p.job.id ∉ (d.dispatchReady now).active ∧ ¬ (d.dispatchReady now).HasRun p.job.id := by
  obtain ⟨n, hn, rfl, hskips⟩ := h
  have hm := ht.lookAll hw now n false
  have hwm : (lookAll now n d false).1.WellFormed :=
    lookAll_induction (fun _ _ _ h hl ↦ h.look hl) n hw false
  obtain ⟨m', hl, hi, hlaunch, hj⟩ := hskips.look hwm now hm.nodup
  have hrun : ¬ m'.HasRun p.job.id := by
    rw [HasRun, hlaunch]
    exact hm.not_hasRun hskips.failed
  obtain ⟨k, hk⟩ := Nat.exists_eq_add_of_lt hn
  have hpass : lookAll now d.queue.size d false =
      lookAll now k m' ((lookAll now n d false).2 || true) := by
    rw [hk, Nat.add_assoc, lookAll_add, lookAll, hl]
  obtain ⟨hrec, hidle, hlaunches⟩ := lookAll_idle (hwm.look hl) hi now k
    ((lookAll now n d false).2 || true)
  obtain ⟨wakeup, he⟩ := dispatchReady_eq d now
  rw [he, hpass]
  refine ⟨hrec.trans hj, hidle, ?_⟩
  rintro ⟨l, hl, hid⟩
  exact hrun ⟨l, hlaunches l hl hid, hid⟩

theorem look_notices (hl : d.look now = some (d', b)) :
    d'.notices = d.notices ∨ ∃ j, d'.notices = d.notices ++ [j] ∧
      (j.error = some Text.cancelledBeforeStart ∨
        ∃ p, d.Skips p ∧ j = p.job.fail now Text.parentJobFailed) := by
  obtain ⟨p, queue, hf, hq, hl⟩ := look_cases hl
  obtain ⟨handles, fresh, he, -⟩ := handleFor_eq d p.job.id
  generalize hn : (d.handleFor p.job.id).1 = handle at hl
  rw [he] at hl
  cases hl with
  | cancelled => exact .inr ⟨_, rfl, .inl rfl⟩
  | launched => exact .inl rfl
  | postponed => exact .inl rfl
  | skipped hr hc =>
    exact .inr ⟨_, rfl, .inr ⟨p, ⟨hf, ⟨queue, hq⟩, by rw [hn]; exact hc, hr⟩, rfl⟩⟩

theorem exists_skipsAt (now : Instant) (hn : n ≤ d.queue.size) :
    ∃ js, (lookAll now n d false).1.notices = d.notices ++ js ∧
      ∀ j ∈ js, j.error = some Text.cancelledBeforeStart ∨
        ∃ m p, SkipsAt d now m p ∧ j = p.job.fail now Text.parentJobFailed := by
  induction n with
  | zero => exact ⟨[], (List.append_nil _).symm, by simp⟩
  | succ n ih =>
    obtain ⟨js, hjs, hall⟩ := ih (Nat.le_of_succ_le hn)
    rw [lookAll_succ]
    cases hl : (lookAll now n d false).1.look now with
    | none => exact ⟨js, hjs, hall⟩
    | some x =>
      obtain ⟨m', b⟩ := x
      rcases look_notices hl with he | ⟨j, he, hj⟩
      · exact ⟨js, he.trans hjs, hall⟩
      · refine ⟨js ++ [j], ?_, fun j' hj' ↦ ?_⟩
        · change m'.notices = _
          rw [he, hjs, List.append_assoc]
        · rcases List.mem_append.1 hj' with hj' | hj'
          · exact hall j' hj'
          · rw [List.mem_singleton.1 hj']
            refine hj.imp_right ?_
            rintro ⟨p, hskips, rfl⟩
            exact ⟨_, p, ⟨n, hn, rfl, hskips⟩, rfl⟩

theorem look_size (hw : d.WellFormed) (hl : d.look now = some (d', b)) :
    d'.queue.size + (if b then 1 else 0) ≤ d.queue.size := by
  obtain ⟨p, queue, -, hq, hl⟩ := look_cases hl
  obtain ⟨hv, hlist⟩ := hw.queue.dequeue_eq_some hq
  obtain ⟨handles, fresh, he, -⟩ := handleFor_eq d p.job.id
  have hsize : d.queue.size = queue.size + 1 := by
    rw [Queue.size, hlist, List.length_cons, Queue.size]
  rw [he] at hl
  cases hl with
  | cancelled | skipped => exact hsize.ge
  | launched => exact Nat.le_of_succ_le hsize.ge
  | postponed =>
    have hback : (queue.enqueue p).size = queue.size + 1 := by
      rw [Queue.size, (hv.enqueue p).2, List.length_append, Queue.size]
      rfl
    exact (hback.trans hsize.symm).le

theorem lookAll_size (hw : d.WellFormed) (now : Instant) (n : Nat) (settled : Bool) :
    (lookAll now n d settled).1.queue.size + (if (lookAll now n d settled).2 then 1 else 0) ≤
      d.queue.size + if settled then 1 else 0 := by
  induction n generalizing d settled with
  | zero => exact le_rfl
  | succ n ih =>
    rw [lookAll]
    cases hl : d.look now with
    | none => exact le_rfl
    | some x =>
      obtain ⟨d', b⟩ := x
      have hlook := look_size hw hl
      refine (ih (hw.look hl) (settled || b)).trans ?_
      cases settled with
      | true =>
        simp only [Bool.true_or, ↓reduceIte]
        omega
      | false => simpa using hlook

theorem dispatchReady_size (hw : d.WellFormed)
    (hs : (lookAll now d.queue.size d false).2 = true) :
    (d.dispatchReady now).queue.size < d.queue.size := by
  have hsize : (lookAll now d.queue.size d false).1.queue.size + 1 ≤ d.queue.size := by
    simpa [hs] using lookAll_size hw now d.queue.size false
  obtain ⟨wakeup, he⟩ := dispatchReady_eq d now
  rw [he]
  exact hsize

theorem Run.skipped (h : Run Retained (passes ++ earlier) d)
    (hp : ∀ s ∈ passes, s.operation = .dispatchReady) (hs : s ∈ passes)
    (hskip : SkipsAt s.before s.now m p) :
    d.registry.get? p.job.id = some (p.job.fail s.now Text.parentJobFailed) ∧
      p.job.id ∉ d.active ∧ ¬ d.HasRun p.job.id := by
  induction passes generalizing d with
  | nil => cases hs
  | cons s' passes ih =>
    cases h with
    | @step _ b now o hrun ho =>
      obtain ⟨rfl, hlater⟩ := List.forall_mem_cons.1 hp
      rcases List.mem_cons.1 hs with rfl | hs
      · exact hskip.stays hrun.lineage hrun.wellFormed
      · obtain ⟨hj, hi, hr⟩ := ih hrun hlater hs
        obtain ⟨events, ht, hc, -⟩ := hrun.wellFormed.unfolds now (o := .dispatchReady) nofun
        obtain ⟨hrec, hidle, hlaunches⟩ :=
          ht.idle (fun ev hev ↦ Event.proceeds_of_dispatch (hc ev hev)) hi
        refine ⟨hrec.trans hj, hidle, ?_⟩
        rintro ⟨l, hl, hid⟩
        exact hr ⟨l, hlaunches l hl hid, hid⟩

theorem Run.wellFormed_before (h : Run Retained (passes ++ earlier) d) (hs : s ∈ passes) :
    s.before.WellFormed := by
  obtain ⟨later, rest, rfl⟩ := List.append_of_mem hs
  rw [List.append_assoc] at h
  exact h.before.wellFormed

/-- Passes are repeated. If the last one has ended no job and a slot is free, then no job that is
left in the queue has an ancestor that has failed. Jobs that the passes took out because of a failed
parent have failed, and were never launched; all others that the passes ended were cancelled. A pass
that ends a job shortens the queue. -/
theorem failure_cascades (h : Run Retained (passes ++ earlier) d)
    (hp : ∀ s ∈ passes, s.operation = .dispatchReady) :
    (∀ s, passes.head? = some s → s.settles = false → 0 < d.freeSlots →
      ∀ id ∈ d.queued, ∀ ancestor, TransGen (Link d.deps.entries) id ancestor →
        ∀ j, d.registry.get? ancestor = some j → j.failed = false) ∧
    (∀ s ∈ passes, ∀ m p, SkipsAt s.before s.now m p →
      d.registry.get? p.job.id = some (p.job.fail s.now Text.parentJobFailed) ∧
        ∀ l ∈ d.launches, l.attempt.id ≠ p.job.id) ∧
    ∀ s ∈ passes,
      (∃ js, (s.before.dispatchReady s.now).notices = s.before.notices ++ js ∧
        ∀ j ∈ js, j.error = some Text.cancelledBeforeStart ∨
          ∃ m p, SkipsAt s.before s.now m p ∧ j = p.job.fail s.now Text.parentJobFailed) ∧
      (s.settles = true →
        (s.before.dispatchReady s.now).queue.size < s.before.queue.size) := by
  refine ⟨fun s hs hset hf id hi ancestor hl j hj ↦ ?_, fun s hs m p hskip ↦ ?_,
    fun s hs ↦ ⟨?_, dispatchReady_size (h.wellFormed_before hs)⟩⟩
  · obtain ⟨passes', rfl⟩ := List.head?_eq_some_iff.1 hs
    have ht := h.lineage
    cases h with
    | @step _ b now o hrun ho =>
      obtain rfl : o = .dispatchReady := hp _ List.mem_cons_self
      have hq := dispatchReady_waiting hrun.wellFormed hset hf
      refine Bool.eq_false_iff.2 fun hfail ↦ ?_
      exact (ht.failed_of_ancestor hq hl ⟨j, hj, hfail⟩).2 hi
  · obtain ⟨hj, -, hr⟩ := h.skipped hp hs hskip
    exact ⟨hj, fun l hl hid ↦ hr ⟨l, hl, hid⟩⟩
  · obtain ⟨js, hjs, hall⟩ := exists_skipsAt s.now (le_refl s.before.queue.size)
    obtain ⟨wakeup, he⟩ := dispatchReady_eq s.before s.now
    rw [he]
    exact ⟨js, hjs, hall⟩

def orphaned : List (Step Unit) × Dispatcher Unit :=
  replay sampleInstant [] (create 1 { maxConcurrent := 3 } {})
    [.enqueue () (sampleJob "first"), .enqueueAfter () (sampleJob "second") "first",
      .enqueueAfter () (sampleJob "third") "second", .enqueue () (sampleJob "other"),
      .enqueueAfter () (sampleJob "fourth") "other", .dispatchReady,
      .report 1 ((sampleJob "first").fail sampleInstant "failed")]

theorem orphaned_run : Run Retained orphaned.1 orphaned.2 := by
  have h : Run Retained [] (create 1 { maxConcurrent := 3 } ({} : Runners Unit)) := .start 1 _ _
  have h := h.step sampleInstant (.enqueue () (sampleJob "first"))
    (.of_proper (by decide +kernel) fun _ h ↦ h)
  have h := h.step sampleInstant (.enqueueAfter () (sampleJob "second") "first")
    (.of_proper (by decide +kernel) fun _ h ↦ h)
  have h := h.step sampleInstant (.enqueueAfter () (sampleJob "third") "second")
    (.of_proper (by decide +kernel) fun _ h ↦ h)
  have h := h.step sampleInstant (.enqueue () (sampleJob "other"))
    (.of_proper (by decide +kernel) fun _ h ↦ h)
  have h := h.step sampleInstant (.enqueueAfter () (sampleJob "fourth") "other")
    (.of_proper (by decide +kernel) fun _ h ↦ h)
  have h := h.step sampleInstant .dispatchReady (.of_proper trivial fun _ h ↦ h)
  exact h.step sampleInstant (.report 1 ((sampleJob "first").fail sampleInstant "failed"))
    (.of_proper trivial fun _ h ↦ h)

def swept : Dispatcher Unit :=
  (orphaned.2.dispatchReady sampleInstant).dispatchReady sampleInstant

theorem failure_cascades_sample :
    swept.queued = ["fourth"] ∧
    (∀ ancestor, TransGen (Link swept.deps.entries) "fourth" ancestor →
      ∀ j, swept.registry.get? ancestor = some j → j.failed = false) ∧
    swept.registry.get? "third" =
      some ((sampleJob "third").fail sampleInstant Text.parentJobFailed) ∧
    ∀ l ∈ swept.launches, l.attempt.id ≠ "third" := by
  let first : Step Unit := ⟨orphaned.2, sampleInstant, .dispatchReady⟩
  let second : Step Unit := ⟨orphaned.2.dispatchReady sampleInstant, sampleInstant, .dispatchReady⟩
  have h : Run Retained ([second, first] ++ orphaned.1) swept :=
    (orphaned_run.step sampleInstant .dispatchReady (.of_proper trivial fun _ h ↦ h)).step
      sampleInstant .dispatchReady (.of_proper trivial fun _ h ↦ h)
  have hp : ∀ s ∈ [second, first], s.operation = .dispatchReady := by
    simp [first, second]
  have hq : (lookAll sampleInstant 1 orphaned.2 false).1.queue.dequeue.map (·.1.job) =
      some (sampleJob "third") := by decide +kernel
  obtain ⟨⟨p, queue⟩, hq, hjob⟩ := Option.map_eq_some_iff.1 hq
  change p.job = sampleJob "third" at hjob
  have hskip : SkipsAt orphaned.2 sampleInstant (lookAll sampleInstant 1 orphaned.2 false).1 p := by
    refine ⟨1, by decide +kernel, rfl, by decide +kernel, ⟨queue, hq⟩, ?_, ?_⟩
    · rw [hjob]
      decide +kernel
    · rw [hjob]
      decide +kernel
  obtain ⟨hleft, hskipped, -⟩ := failure_cascades h hp
  obtain ⟨hthird, hlaunches⟩ := hskipped first (by simp) _ p hskip
  rw [hjob] at hthird hlaunches
  exact ⟨by decide +kernel, hleft second rfl (by decide +kernel) (by decide +kernel) "fourth"
    (by decide +kernel), hthird, hlaunches⟩

/-- A job that is submitted as a success can run and fail nevertheless. Its child has been launched
by then, and the child's child waits in the queue. -/
theorem failure_stalls :
    ¬ ∀ (s : Step Unit) (past : List (Step Unit)) (d : Dispatcher Unit),
      Run (fun past d o ↦ NewIds past d o ∧ ∀ id, ¬ o.Removes id) (s :: past) d →
      s.operation = .dispatchReady → s.settles = false → 0 < d.freeSlots →
      ∀ id ∈ d.queued, ∀ ancestor, TransGen (Link d.deps.entries) id ancestor →
        ∀ j, d.registry.get? ancestor = some j → j.failed = false := by
  intro hall
  have h : Run (fun past d o ↦ NewIds past d o ∧ ∀ id, ¬ o.Removes id) []
      (create 1 { maxConcurrent := 3 } ({} : Runners Unit)) := .start 1 _ _
  have h := h.step sampleInstant (.enqueue () ((sampleJob "first").finish sampleInstant))
    ⟨by unfold NewIds; decide +kernel, fun _ h ↦ h⟩
  have h := h.step sampleInstant (.enqueueAfter () (sampleJob "second") "first")
    ⟨by unfold NewIds; decide +kernel, fun _ h ↦ h⟩
  have h := h.step sampleInstant (.enqueueAfter () (sampleJob "third") "second")
    ⟨by unfold NewIds; decide +kernel, fun _ h ↦ h⟩
  have h := h.step sampleInstant .dispatchReady ⟨trivial, fun _ h ↦ h⟩
  have h := h.step sampleInstant (.report 1 ((sampleJob "first").fail sampleInstant "failed"))
    ⟨trivial, fun _ h ↦ h⟩
  have h := h.step sampleInstant .dispatchReady ⟨trivial, fun _ h ↦ h⟩
  have hf := hall _ _ _ h rfl (by decide +kernel) (by decide +kernel) "third" (by decide +kernel)
    "first" (.tail (.single (b := "second") (by unfold Link; decide +kernel))
      (by unfold Link; decide +kernel))
    ((sampleJob "first").fail sampleInstant "failed") (by decide +kernel)
  exact absurd hf (by decide)

end JobEngine.Dispatcher
