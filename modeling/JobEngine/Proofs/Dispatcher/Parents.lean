import JobEngine.Proofs.Dispatcher.Lineage
import JobEngine.Proofs.Dispatcher.Order

namespace JobEngine.Dispatcher

open DependencyGraph

variable {τ : Type} {d d' : Dispatcher τ} {now : Instant} {b : Bool} {j : Job}
  {id job parent : String} {ps : List String} {ev : Event τ} {o : Operation τ}
  {past : List (Step τ)} {steps : List (Instant × Operation τ)}
  {ok : List (Step τ) → Dispatcher τ → Operation τ → Prop}

structure Call (τ : Type) where
  now : Instant
  task : τ
  parent : String

def enqueueAfterAll (d : Dispatcher τ) (j : Job) (calls : List (Call τ)) : Dispatcher τ :=
  calls.foldl (fun d c ↦ (d.enqueueAfter c.now c.task j c.parent).2) d

theorem link_enqueue {task : τ} :
    Link (d.enqueue task j).deps.entries job parent ↔ Link d.deps.entries job parent := by
  unfold enqueue
  rcases handleFor_cases d j.id with ⟨n, -, he⟩ | ⟨-, he⟩
  · rw [he]
  · rw [he]

theorem link_perform (hw : d.WellFormed) (ho : ∀ s fs, o ≠ .load s fs)
    (hl : Link (d.perform now o).deps.entries job parent) :
    Link d.deps.entries job parent ∨ (∃ task j, o = .enqueueAfter task j parent ∧ job = j.id) ∧
      (d.registry.get? parent).isSome = true ∧
      ((d.perform now o).registry.get? job).isSome = true := by
  have hrest (hn : o.submitted? = none) : Link d.deps.entries job parent := by
    obtain ⟨events, ht, hc, -⟩ := hw.unfolds now ho
    apply ht.keeps (motive := fun e ↦ Link e.deps.entries job parent →
      Link d.deps.entries job parent)
    · intro e ev hev e' hkeep heff hl
      rcases heff.link_cases hl with hl | ⟨p, hp, -⟩
      · exact hkeep hl
      · exact absurd hp (Operation.not_submitted hn (hc ev hev) p)
    · exact fun hl ↦ hl
    · exact hl
  cases o with
  | load s fs => exact absurd rfl (ho s fs)
  | enqueue task j => exact .inl (link_enqueue.1 hl)
  | enqueueAfter task j parent' =>
    rcases enqueueAfter_cases hw.deps now task j parent' with ⟨c, he⟩ | ⟨p, -, -, he⟩
    · rw [perform, he] at hl
      exact .inl hl
    · rcases link_enqueueAfter hw hl with hl | ⟨rfl, rfl, hp⟩
      · exact .inl hl
      · refine .inr ⟨⟨task, j, rfl, rfl⟩, hp, ?_⟩
        obtain ⟨hr, -⟩ := enqueue_cases hw.queue task j
        rw [perform, he]
        change ((d.enqueue task j).registry.get? j.id).isSome = true
        rw [hr, Registry.get?_insert_self]
        rfl
  | dispatchReady | report | taskOver | handleStop | restart | resume | clearIfFinished | prune
  | delayNext => exact .inl (hrest rfl)

theorem Run.link_used (h : Run ok past d) (hl : Link d.deps.entries job parent) :
    Used past d job ∧ Used past d parent := by
  induction h generalizing job parent with
  | start processors config runners => cases hl
  | @step past d now o hrun ho ih =>
    by_cases hload : ∃ s fs, o = .load s fs
    · obtain ⟨s, fs, rfl⟩ := hload
      have hdeps : (d.perform now (.load s fs)).deps = d.deps := takeUp_deps _ d
      rw [hdeps] at hl
      obtain ⟨hj, hp⟩ := ih hl
      exact ⟨hj.step now _, hp.step now _⟩
    · rcases link_perform hrun.wellFormed (fun s fs he ↦ hload ⟨s, fs, he⟩) hl with
        hl | ⟨-, hp, hj⟩
      · obtain ⟨hj, hp⟩ := ih hl
        exact ⟨hj.step now o, hp.step now o⟩
      · have hp : Used past d parent := .inl (.inl hp)
        exact ⟨.inl (.inl hj), hp.step now o⟩

theorem enqueueAfter_eq_ok {task : τ} (hp : (d.registry.get? parent).isSome = true)
    (hadd : (d.deps.add now j.id parent).1 = .ok ()) :
    (d.enqueueAfter now task j parent).1 = .ok () := by
  obtain ⟨p, hp⟩ := Option.isSome_iff_exists.1 hp
  have hadd : d.deps.add now j.id parent = (.ok (), (d.deps.add now j.id parent).2) :=
    Prod.ext hadd rfl
  rw [Dispatcher.enqueueAfter, hp, hadd]

/-- A job to which more parents can be added: they are registered, and nobody waits for the job. -/
structure Extends (d : Dispatcher τ) (id : String) (ps : List String) : Prop where
  wellFormed : d.WellFormed
  registered : ∀ p ∈ ps, (d.registry.get? p).isSome = true
  distinct : ps.Nodup
  ne : id ∉ ps
  new : ∀ p ∈ ps, ¬ Link d.deps.entries id p
  leaf : ∀ job, ¬ Link d.deps.entries job id

theorem Run.extends (h : Run ok past d) (hid : ¬ Used past d id)
    (hr : ∀ p ∈ ps, (d.registry.get? p).isSome = true) (hn : ps.Nodup) : Extends d id ps where
  wellFormed := h.wellFormed
  registered := hr
  distinct := hn
  ne hp := hid (.inl (.inl (hr id hp)))
  new _ _ hl := hid (h.link_used hl).1
  leaf _ hl := hid (h.link_used hl).2

namespace Extends

theorem enqueueAfter (h : Extends d j.id (parent :: ps)) (now : Instant) (task : τ) :
    (d.enqueueAfter now task j parent).1 = .ok () ∧
      Extends (d.enqueueAfter now task j parent).2 j.id ps ∧
      (d.enqueueAfter now task j parent).2.active.Perm (j.id :: d.active) ∧
      (d.enqueueAfter now task j parent).2.launches = d.launches := by
  have hw := h.wellFormed
  obtain ⟨hnp, hn⟩ := List.nodup_cons.1 h.distinct
  obtain ⟨hne, hnj⟩ : j.id ≠ parent ∧ j.id ∉ ps := by simpa using h.ne
  have hadd : (d.deps.add now j.id parent).1 = .ok () :=
    add_eq_ok (h.new parent List.mem_cons_self) h.leaf (Ne.symm hne) now
  have hacc : (d.enqueueAfter now task j parent).1 = .ok () :=
    enqueueAfter_eq_ok (h.registered parent List.mem_cons_self) hadd
  have heff : Effect now d (.submitted (d.submission task j))
      (d.enqueueAfter now task j parent).2 :=
    enqueueAfter_effect hw task j parent (by rw [hacc]; rfl)
  refine ⟨hacc, ⟨hw.enqueueAfter now task j parent, fun q hq ↦ ?_, hn, hnj, fun q hq hl ↦ ?_,
    fun job hl ↦ ?_⟩, ?_, heff.launches.trans (List.append_nil _)⟩
  · rw [heff.registry]
    exact isSome_get?_insert (h.registered q (List.mem_cons_of_mem _ hq)) _
  · rcases link_enqueueAfter hw hl with hl | ⟨-, rfl, -⟩
    · exact h.new q (List.mem_cons_of_mem _ hq) hl
    · exact hnp hq
  · rcases link_enqueueAfter hw hl with hl | ⟨-, he, -⟩
    · exact h.leaf job hl
    · exact hne he
  · exact heff.ids_perm.symm.trans (List.perm_append_singleton _ _)

theorem enqueueAfterAll {calls : List (Call τ)} (h : Extends d j.id (calls.map (·.parent))) :
    (∀ before c after, calls = before ++ c :: after →
      ((d.enqueueAfterAll j before).enqueueAfter c.now c.task j c.parent).1 = .ok ()) ∧
    (d.enqueueAfterAll j calls).WellFormed ∧
    (d.enqueueAfterAll j calls).active.Perm (List.replicate calls.length j.id ++ d.active) ∧
    (d.enqueueAfterAll j calls).launches = d.launches := by
  induction calls generalizing d with
  | nil => exact ⟨by simp, h.wellFormed, .refl _, rfl⟩
  | cons c calls ih =>
    obtain ⟨hacc, hext, hperm, hlaunch⟩ := h.enqueueAfter c.now c.task
    obtain ⟨hall, hw, hperm', hlaunch'⟩ := ih hext
    refine ⟨fun before c' after he ↦ ?_, hw, ?_, hlaunch'.trans hlaunch⟩
    · cases before with
      | nil =>
        cases he
        exact hacc
      | cons c'' before =>
        cases he
        exact hall before c' after rfl
    · -- the other calls put theirs in front of this one
      rw [List.length_cons, List.replicate_succ']
      refine hperm'.trans ((hperm.append_left _).trans ?_)
      rw [List.append_assoc]
      exact .refl _

end Extends

def Operation.Advances : Operation τ → Prop
  | .dispatchReady | .report _ _ | .taskOver _ _ | .handleStop _ => True
  | _ => False

/-- The jobs of everything that was launched or is in the queue, once for every attempt. -/
def started (d : Dispatcher τ) : List String := d.launches.map (·.attempt.id) ++ d.queued

theorem started_launch {q : Pending τ} {queue : Queue (Pending τ)} {handles : List (String × Nat)}
    {fresh freeSlots : Nat} (hlist : d.queue.toList = q :: queue.toList) (now : Instant)
    (handle : Nat) :
    ({ d with handles, fresh, freeSlots, queue }.launch now q handle).started = d.started := by
  rw [started, started, queued, queued, hlist]
  change List.map _ (d.launches ++ [_]) ++ queue.toList.map _ = _
  rw [List.map_append, List.append_assoc]
  rfl

theorem look_started (hw : d.WellFormed) (hl : d.look now = some (d', b)) :
    d'.started.Subperm d.started := by
  obtain ⟨p, queue, -, hq, hl⟩ := look_cases hl
  obtain ⟨hv, hlist⟩ := hw.queue.dequeue_eq_some hq
  obtain ⟨handles, fresh, he, -⟩ := handleFor_eq d p.job.id
  have hqueued : d.queued = p.job.id :: queue.toList.map (·.job.id) := by
    rw [queued, hlist, List.map_cons]
  rw [he] at hl
  cases hl with
  | cancelled | skipped =>
    rw [started, started, hqueued]
    exact ((List.sublist_cons_self _ _).append_left _).subperm
  | postponed =>
    have hlist' : (queue.enqueue p).toList = queue.toList ++ [p] := (hv.enqueue p).2
    rw [started, started, hqueued]
    refine (List.Perm.append_left _ ?_).subperm
    change ((queue.enqueue p).toList.map (·.job.id)).Perm _
    rw [hlist', List.map_append]
    exact List.perm_append_singleton _ _
  | launched => exact (List.Perm.of_eq (started_launch hlist now _)).subperm

theorem dispatchReady_started (hw : d.WellFormed) (now : Instant) :
    (d.dispatchReady now).started.Subperm d.started := by
  have hlook (e e' : Dispatcher τ) (b : Bool) (he : e.WellFormed ∧ e.started.Subperm d.started)
      (hl : e.look now = some (e', b)) : e'.WellFormed ∧ e'.started.Subperm d.started :=
    ⟨he.1.look hl, (look_started he.1 hl).trans he.2⟩
  obtain ⟨wakeup, he⟩ := dispatchReady_eq d now
  rw [he]
  exact (lookAll_induction hlook d.queue.size ⟨hw, .refl _⟩ false).2

theorem perform_advances (hw : d.WellFormed) (now : Instant) (ho : o.Advances) :
    (d.perform now o).active.Subperm d.active ∧ (d.perform now o).started.Subperm d.started := by
  have hload : ∀ s fs, o ≠ .load s fs := by
    rintro s fs rfl
    exact ho
  constructor
  · obtain ⟨events, ht, hc, -⟩ := hw.unfolds now hload
    apply ht.keeps (motive := fun e ↦ e.active.Subperm d.active)
    · intro e ev hev e' hsub heff
      have hp : ev.Proceeds := by
        have hc := hc ev hev
        cases o with
        | dispatchReady | report | taskOver | handleStop =>
          cases ev with
          | quiet | launched | updated | settled => trivial
          | submitted | restarted | refused | forgotten => cases hc
        | load | enqueue | enqueueAfter | restart | resume | clearIfFinished | prune | delayNext =>
          cases ho
      have hperm := heff.active_perm hp
      exact ((List.sublist_append_right _ _).subperm.trans hperm.symm.subperm).trans hsub
    · exact .refl _
  · by_cases hp : o = .dispatchReady
    · subst hp
      exact dispatchReady_started hw now
    · have hsubmits : ¬ o.Submits := by
        cases o with
        | dispatchReady | report | taskOver | handleStop => exact not_false
        | load | enqueue | enqueueAfter | restart | resume | clearIfFinished | prune | delayNext =>
          cases ho
      have hdelay : o ≠ .delayNext := by
        rintro rfl
        exact ho
      rw [started, started, hw.launches_eq now hp]
      exact (((sublist_perform hw now hsubmits hp hdelay).map _).append_left _).subperm

theorem execute_advances (hw : d.WellFormed) (hs : ∀ s ∈ steps, s.2.Advances) :
    (d.execute steps).active.Subperm d.active ∧ (d.execute steps).started.Subperm d.started := by
  induction steps generalizing d with
  | nil => exact ⟨.refl _, .refl _⟩
  | cons s steps ih =>
    obtain ⟨hs, hrest⟩ := List.forall_mem_cons.1 hs
    obtain ⟨ha, hq⟩ := perform_advances hw s.1 hs
    obtain ⟨ha', hq'⟩ := ih (hw.perform s.1 s.2) hrest
    exact ⟨ha'.trans ha, hq'.trans hq⟩

theorem Run.launched_used (h : Run ok past d) (hr : d.HasRun id) : Used past d id := by
  induction h with
  | start processors config runners =>
    obtain ⟨l, hl, -⟩ := hr
    cases hl
  | @step past d now o hrun ho ih =>
    have hw := hrun.wellFormed
    obtain ⟨l, hl, rfl⟩ := hr
    -- what a pass launches was in the queue before
    by_cases hp : o = .dispatchReady
    · subst hp
      have hm := (dispatchReady_started hw now).subset
        (List.mem_append_left _ (List.mem_map_of_mem hl))
      rcases List.mem_append.1 hm with hm | hm
      · obtain ⟨l', hl', he⟩ := List.mem_map.1 hm
        exact (ih ⟨l', hl', he⟩).step now _
      · exact (hrun.active_used _ (List.mem_append_left _ hm)).step now _
    · rw [hw.launches_eq now hp] at hl
      exact (ih ⟨l, hl, rfl⟩).step now o

/-- A job that is submitted once for each of its parents is accepted every time, and has as many
attempts as parents. There are never more of them, nor are more launched in total, as long as it is
not submitted or restarted again; so one parent makes one attempt. -/
theorem attempts_per_parent (h : Run ok past d) (hj : ¬ Used past d j.id)
    {calls : List (Call τ)} (hr : ∀ c ∈ calls, (d.registry.get? c.parent).isSome = true)
    (hn : (calls.map (·.parent)).Nodup) :
    (∀ before c after, calls = before ++ c :: after →
      ((d.enqueueAfterAll j before).enqueueAfter c.now c.task j c.parent).1 = .ok ()) ∧
    (d.enqueueAfterAll j calls).active.count j.id = calls.length ∧
    ∀ steps, (∀ s ∈ steps, s.2.Advances) →
      let e := (d.enqueueAfterAll j calls).execute steps
      e.active.count j.id ≤ calls.length ∧
      (e.launches.map (·.attempt.id)).count j.id + e.queued.count j.id ≤ calls.length := by
  have hext : Extends d j.id (calls.map (·.parent)) :=
    h.extends hj (List.forall_mem_map.2 hr) hn
  obtain ⟨hacc, hw, hperm, hlaunch⟩ := hext.enqueueAfterAll
  -- an id that was never used has no attempts, so only the calls count
  have hidle : d.active.count j.id = 0 := List.count_eq_zero.2 fun hi ↦ hj (h.active_used _ hi)
  have hnever : (d.launches.map (·.attempt.id)).count j.id = 0 := by
    refine List.count_eq_zero.2 fun hm ↦ hj ?_
    obtain ⟨l, hl, he⟩ := List.mem_map.1 hm
    exact h.launched_used ⟨l, hl, he⟩
  have hactive : (d.enqueueAfterAll j calls).active.count j.id = calls.length := by
    rw [hperm.count_eq, List.count_append, List.count_replicate_self, hidle, Nat.add_zero]
  refine ⟨hacc, hactive, fun steps hs ↦ ?_⟩
  obtain ⟨ha, hq⟩ := execute_advances hw hs
  have hle := ha.count_le j.id
  have hle' := hq.count_le j.id
  have hqueued : (d.enqueueAfterAll j calls).queued.count j.id ≤ calls.length := by
    rw [← hactive]
    exact (List.sublist_append_left _ _).count_le j.id
  rw [started, started, List.count_append, List.count_append, hlaunch, hnever] at hle'
  constructor
  · omega
  · omega

def sampleParents : List (Step Unit) × Dispatcher Unit :=
  replay sampleInstant [] (create 1 { maxConcurrent := 4 } {})
    [.enqueue () (sampleJob "left"), .enqueue () (sampleJob "right"), .dispatchReady,
      .report 1 ((sampleJob "left").finish sampleInstant),
      .report 3 ((sampleJob "right").finish sampleInstant)]

theorem sampleParents_run : Run Proper sampleParents.1 sampleParents.2 := by
  have h : Run Proper [] (create 1 { maxConcurrent := 4 } ({} : Runners Unit)) := .start 1 _ _
  have h := h.step sampleInstant (.enqueue () (sampleJob "left")) (by decide +kernel)
  have h := h.step sampleInstant (.enqueue () (sampleJob "right")) (by decide +kernel)
  have h := h.step sampleInstant .dispatchReady trivial
  have h := h.step sampleInstant (.report 1 ((sampleJob "left").finish sampleInstant)) trivial
  exact h.step sampleInstant (.report 3 ((sampleJob "right").finish sampleInstant)) trivial

def sampleCalls : List (Call Unit) :=
  [⟨sampleInstant, (), "left"⟩, ⟨sampleInstant, (), "right"⟩]

theorem attempts_per_parent_sample :
    let d := sampleParents.2.enqueueAfterAll (sampleJob "child") sampleCalls
    ¬ Used sampleParents.1 sampleParents.2 "child" ∧
    (∀ c ∈ sampleCalls, (sampleParents.2.registry.get? c.parent).isSome = true) ∧
    (sampleCalls.map (·.parent)).Nodup ∧ d.active.count "child" = 2 ∧
    (d.execute [(sampleInstant, .dispatchReady)]).active.count "child" ≤ 2 := by
  have hj : ¬ Used sampleParents.1 sampleParents.2 (sampleJob "child").id := by decide +kernel
  have hr : ∀ c ∈ sampleCalls, (sampleParents.2.registry.get? c.parent).isSome = true := by
    decide +kernel
  have hn : (sampleCalls.map (·.parent)).Nodup := by decide +kernel
  obtain ⟨-, hc, hs⟩ := attempts_per_parent sampleParents_run hj hr hn
  exact ⟨hj, hr, hn, hc, (hs [(sampleInstant, .dispatchReady)] (by simp [Operation.Advances])).1⟩

/-- Several parents do not leave a job one attempt. Here it runs twice at the same time. -/
theorem attempts_not_unique :
    ¬ ∀ (past : List (Step Unit)) (d : Dispatcher Unit) (j : Job) (calls : List (Call Unit)),
      Run Proper past d → j.finished = false → ¬ Used past d j.id → 2 ≤ calls.length →
      (∀ c ∈ calls, (d.registry.get? c.parent).isSome = true) →
      (calls.map (·.parent)).Nodup → ∀ steps, (∀ s ∈ steps, s.2.Advances) →
      let e := (d.enqueueAfterAll j calls).execute steps
      e.active.count j.id ≤ 1 ∧ (e.launches.map (·.attempt.id)).count j.id ≤ 1 := by
  intro hunique
  have hs : ∀ s ∈ [(sampleInstant, (.dispatchReady : Operation Unit))], s.2.Advances := by
    simp [Operation.Advances]
  have hone := hunique _ _ (sampleJob "child") sampleCalls sampleParents_run rfl
    (by decide +kernel) (by decide) (by decide +kernel) (by decide +kernel) _ hs
  revert hone
  decide +kernel

end JobEngine.Dispatcher
