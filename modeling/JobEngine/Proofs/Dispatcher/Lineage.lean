import JobEngine.Proofs.Dispatcher.Finality
import JobEngine.Proofs.Dispatcher.Launch
import JobEngine.Proofs.Dispatcher.Loop

namespace JobEngine

def Job.Succeeded (j : Job) : Prop := j.finished = true ∧ j.error = none

/-- An edge tells that its parent has failed, and it tells exactly if its parent has succeeded. -/
structure Edge.Agrees (e : Edge) (j : Job) : Prop where
  failed : j.failed = true → e.hasError = true
  succeeded : e.finished = true ∧ e.hasError = false ↔ j.Succeeded

namespace Edge

variable {e : Edge} {j k : Job}

theorem Mirrors.agrees (h : e.Mirrors j) : e.Agrees j := by
  refine ⟨fun hf ↦ h.2.trans hf, ?_⟩
  rw [h.1, h.2, Job.Succeeded, and_congr_right_iff]
  intro hf
  simp [Job.failed, hf]

theorem Agrees.congr (h : e.Agrees k) (hf : j.failed = true → k.failed = true)
    (hs : j.Succeeded ↔ k.Succeeded) : e.Agrees j :=
  ⟨fun hj ↦ h.failed (hf hj), h.succeeded.trans hs.symm⟩

theorem Agrees.of_unfinished (hj : j.finished = false)
    (he : ¬ (e.finished = true ∧ e.hasError = false)) : e.Agrees j := by
  refine ⟨fun hf ↦ ?_, iff_of_false he fun hs ↦ ?_⟩
  · rw [Job.failed, hj] at hf
    cases hf
  · rw [hs.1] at hj
    cases hj

end Edge

namespace Dispatcher

open DependencyGraph

variable {τ : Type} {d d' : Dispatcher τ} {now : Instant} {ev : Event τ} {j k : Job}
  {id job parent : String} {p : Pending τ} {past : List (Step τ)} {o : Operation τ}

def Succeeded (d : Dispatcher τ) (id : String) : Prop :=
  ∃ j, d.registry.get? id = some j ∧ j.Succeeded

def HasRun (d : Dispatcher τ) (id : String) : Prop := ∃ l ∈ d.launches, l.attempt.id = id

/-- What runs keep in which no job is forgotten and no success is submitted. -/
structure Lineage (d : Dispatcher τ) : Prop where
  deps : d.deps.WellFormed
  nodup : d.active.Nodup
  handle : ∀ id ∈ d.active, (d.handles.lookup id).isSome = true
  pending : ∀ p ∈ d.queue.toList, d.registry.get? p.job.id = some p.job
  unsucceeded : ∀ id ∈ d.active, ∃ j, d.registry.get? id = some j ∧ ¬ j.Succeeded
  idle : ∀ id j, d.registry.get? id = some j → id ∉ d.active → j.finished = true
  detached : ∀ id, (d.detached.get? id).isSome = true → d.registry.get? id = none
  launched : ∀ id, d.HasRun id → (d.registry.get? id).isSome = true
  running : ∀ id ∈ d.runningIds, d.HasRun id
  edge : ∀ job, ∀ e ∈ d.deps.edgesOf job, (d.registry.get? job).isSome = true ∧
    ∃ p, d.registry.get? e.parent = some p ∧ e.Agrees p
  vouched : ∀ job, d.HasRun job ∨ d.Succeeded job →
    ∀ parent, Link d.deps.entries job parent → d.Succeeded parent

theorem lineage_of_idle (h : d.Accounted []) (hw : d.WellFormed) (ha : d.active = [])
    (hd : d.deps.entries = []) (hl : d.launches = []) : d.Lineage := by
  have hq : d.queue.toList = [] := List.map_eq_nil_iff.1 (List.append_eq_nil_iff.1 ha).1
  have hr : d.runningIds = [] := (List.append_eq_nil_iff.1 ha).2
  refine ⟨hw.deps, by simp [ha], by simp [ha], by simp [hq], by simp [ha], fun id j hj _ ↦ ?_,
    h.detached, by simp [HasRun, hl], by simp [hr], by simp [edgesOf, hd],
    by simp [Link, parents, hd]⟩
  cases hf : j.finished with
  | true => rfl
  | false =>
    have hu := (h.unfinished_iff id).1 ⟨j, hj, hf⟩
    rw [ha] at hu
    cases hu

def Event.Admissible (d : Dispatcher τ) : Event τ → Prop
  | .submitted p =>
    d.registry.get? p.job.id = none ∧ d.detached.get? p.job.id = none ∧ ¬ p.job.Succeeded
  | .forgotten _ => False
  | .quiet | .restarted _ | .launched _ | .updated _ | .settled _ _ | .refused _ => True

theorem Event.record_of_entry (hp : ev.entry? = some p) : ev.record? = some p.job := by
  rcases Event.eq_of_entry hp with rfl | rfl <;> rfl

theorem Effect.hasRun (h : Effect now d ev d') (hr : d.HasRun id) : d'.HasRun id := by
  obtain ⟨l, hl, hi⟩ := hr
  refine ⟨l, ?_, hi⟩
  rw [h.launches]
  exact List.mem_append_left _ hl

theorem Effect.hasRun_cases (h : Effect now d ev d') (hr : d'.HasRun id) :
    d.HasRun id ∨ ∃ l, ev.launch? = some l ∧ l.attempt.id = id := by
  obtain ⟨l, hl, hi⟩ := hr
  rw [h.launches] at hl
  rcases List.mem_append.1 hl with hl | hl
  · exact .inl ⟨l, hl, hi⟩
  · exact .inr ⟨l, Option.mem_toList.1 hl, hi⟩

theorem Event.Admissible.ne_forgotten (ha : ev.Admissible d) (id : String) :
    ev ≠ .forgotten id := by
  rintro rfl
  exact ha

theorem Effect.link_cases (h : Effect now d ev d') (hl : Link d'.deps.entries job parent) :
    Link d.deps.entries job parent ∨ ∃ p, ev = .submitted p ∧ job = p.job.id := by
  have hg := h.graph
  cases ev with
  | quiet | launched | updated | refused => exact .inl (hg ▸ hl)
  | submitted p => exact (hg.link job parent hl).imp_right fun he ↦ ⟨p, rfl, he⟩
  | restarted p =>
    rw [hg] at hl
    exact .inl (link_reopenParent.1 (link_refreshEdges.1 hl))
  | settled ticket j =>
    rw [hg] at hl
    exact .inl (link_setParentFinished.1 hl)
  | forgotten id =>
    rw [hg] at hl
    exact .inl hl.of_without

theorem Effect.agrees_kept (h : Effect now d ev d') (ha : ev.Admissible d) {e : Edge}
    (hk : d.registry.get? e.parent = some k) (hek : e.Agrees k)
    (hw : ∀ j, ev.record? = some j → e.parent = j.id → e.Agrees j) :
    ∃ p, d'.registry.get? e.parent = some p ∧ e.Agrees p := by
  by_cases hj : ∃ j, ev.record? = some j ∧ e.parent = j.id
  · obtain ⟨j, hj, hp⟩ := hj
    exact ⟨j, by rw [h.registry_insert hj, hp, Registry.get?_insert_self], hw j hj hp⟩
  · refine ⟨k, ?_, hek⟩
    rw [h.get?_of_ne (ha.ne_forgotten _) fun j hr hp ↦ hj ⟨j, hr, hp⟩, hk]

namespace Lineage

theorem succeeded_active (ht : d.Lineage) (hi : id ∈ d.active) : ¬ d.Succeeded id := by
  rintro ⟨j, hj, hs⟩
  obtain ⟨k, hk, hn⟩ := ht.unsucceeded id hi
  rw [hj, Option.some.injEq] at hk
  exact hn (hk ▸ hs)

theorem not_active (ht : d.Lineage) (hr : d.registry.get? id = none) : id ∉ d.active := by
  intro hi
  obtain ⟨j, hj, -⟩ := ht.unsucceeded id hi
  rw [hr] at hj
  cases hj

section Effect

variable (ht : d.Lineage) (ha : ev.Admissible d) (h : Effect now d ev d')
include ht ha h

/-- Only jobs without a handle are restarted, and a job that is submitted is not known. -/
theorem entry_idle (hp : ev.entry? = some p) : p.job.id ∉ d.active := by
  have hguard := h.guard
  rcases Event.eq_of_entry hp with rfl | rfl
  · exact ht.not_active ha.1
  · obtain ⟨-, k, -, -, hk, he⟩ := hguard
    intro hi
    have hs := ht.handle _ hi
    rw [he] at hs
    change (d.handles.lookup k.id).isSome = true at hs
    rw [hk] at hs
    cases hs

theorem not_succeeded_of_record (hj : ev.record? = some j) : ¬ d.Succeeded j.id := by
  have hguard := h.guard
  cases ev with
  | quiet | forgotten => cases hj
  | submitted p =>
    cases hj
    rintro ⟨k, hk, -⟩
    rw [ha.1] at hk
    cases hk
  | restarted p =>
    cases hj
    obtain ⟨-, k, hk, hallow, -, he⟩ := hguard
    rintro ⟨k', hk', hs⟩
    rw [he] at hk'
    change d.registry.get? k.id = some k' at hk'
    rw [hk', Option.getD_some] at hk
    exact (allowsRestart_eq_ok_iff.1 hallow).1 (hk ▸ hs)
  | launched | updated | settled => exact ht.succeeded_active (h.record_active trivial hj)
  | refused =>
    cases hj
    obtain ⟨k, hk, error, rfl⟩ := hguard
    rintro ⟨k', hk', -⟩
    change d.registry.get? k.id = some k' at hk'
    rw [ht.detached k.id (by rw [hk]; rfl)] at hk'
    cases hk'

theorem succeeded_stays (hs : d.Succeeded id) : d'.Succeeded id := by
  obtain ⟨j, hj, hs⟩ := hs
  refine ⟨j, ?_, hs⟩
  rw [h.get?_of_ne (ha.ne_forgotten id), hj]
  rintro k hk rfl
  exact ht.not_succeeded_of_record ha h hk ⟨j, hj, hs⟩

theorem nodup_effect : d'.active.Nodup := by
  have hn : (d.active ++ ev.entry?.toList.map (·.job.id)).Nodup := by
    cases hp : ev.entry? with
    | none => simpa using ht.nodup
    | some p => simpa [List.nodup_append] using ⟨ht.nodup, fun id hi he ↦
        ht.entry_idle ha h hp (he ▸ hi)⟩
  exact (List.nodup_append.1 (h.ids_perm.nodup_iff.1 hn)).2.1

omit ha in
theorem handle_effect (hi : id ∈ d'.active) : (d'.handles.lookup id).isSome = true := by
  refine h.handle id ((h.mem_active hi).imp_left (ht.handle id)) ?_
  rintro x hx rfl
  exact h.ended_idle ht.nodup hx hi

theorem record_not_queued (hj : ev.record? = some j) (hn : ev.entry? = none) :
    j.id ∉ d'.queued := by
  intro hi
  obtain ⟨q, hq', he⟩ := List.mem_map.1 hi
  have hq : q ∈ d.queue.toList := (h.queue q hq').resolve_right (by simp [hn])
  have hguard := h.guard
  cases ev with
  | quiet | forgotten => cases hj
  | submitted | restarted => cases hn
  | launched l =>
    obtain ⟨p, hp, -, handle, rfl⟩ := hguard
    cases hj
    have hqueued : d.queued.Nodup := (List.nodup_append.1 ht.nodup).1
    obtain rfl : q = p := List.inj_on_of_nodup_map hqueued hq hp he
    exact h.unqueued _ rfl q hq' rfl
  | updated k =>
    cases hj
    exact (List.nodup_append.1 ht.nodup).2.2 _ (List.mem_map_of_mem hq) _ hguard.1 he
  | settled ticket k =>
    cases hj
    exact h.ended_idle ht.nodup (x := (ticket, j)) rfl (List.mem_append_left _ hi)
  | refused k =>
    cases hj
    obtain ⟨k, hk, error, rfl⟩ := hguard
    have hr := ht.detached k.id (by rw [hk]; rfl)
    exact ht.not_active hr (List.mem_append_left _ (he ▸ List.mem_map_of_mem hq))

theorem pending_effect (hp : p ∈ d'.queue.toList) :
    d'.registry.get? p.job.id = some p.job := by
  rcases h.queue p hp with hq | hent
  · rw [h.get?_of_ne (ha.ne_forgotten _) fun j hj he ↦ ?_, ht.pending p hq]
    cases hent : ev.entry? with
    | none =>
      exact ht.record_not_queued ha h hj hent (he ▸ List.mem_map_of_mem hp)
    | some q =>
      have hj : some q.job = some j := (Event.record_of_entry hent).symm.trans hj
      cases hj
      exact ht.entry_idle ha h hent (he ▸ List.mem_append_left _ (List.mem_map_of_mem hq))
  · rw [h.registry_insert (Event.record_of_entry hent), Registry.get?_insert_self]

theorem running_of_success (hj : ev.record? = some j) (hs : j.Succeeded) :
    (∃ ticket, ev = .settled ticket j) ∧ j.id ∈ d.runningIds := by
  have hguard := h.guard
  cases ev with
  | quiet | forgotten => cases hj
  | submitted p =>
    cases hj
    exact absurd hs ha.2.2
  | restarted p =>
    cases hj
    obtain ⟨-, k, -, -, -, he⟩ := hguard
    rw [he] at hs
    cases hs.1
  | launched l =>
    obtain ⟨p, hp, -, handle, rfl⟩ := hguard
    cases hj
    refine absurd ⟨p.job, ht.pending p hp, hs⟩ (ht.succeeded_active ?_)
    exact List.mem_append_left _ (List.mem_map_of_mem hp)
  | updated k =>
    cases hj
    have hf := hguard.2
    rw [hs.1] at hf
    cases hf
  | settled ticket k =>
    cases hj
    refine ⟨⟨ticket, rfl⟩, hguard.2.resolve_right ?_⟩
    simp [hs.2]
  | refused k =>
    cases hj
    obtain ⟨k, -, error, rfl⟩ := hguard
    cases hs.2

theorem unsucceeded_effect (hi : id ∈ d'.active) :
    ∃ j, d'.registry.get? id = some j ∧ ¬ j.Succeeded := by
  by_cases hj : ∃ j, ev.record? = some j ∧ id = j.id
  · obtain ⟨j, hj, rfl⟩ := hj
    refine ⟨j, by rw [h.registry_insert hj, Registry.get?_insert_self], fun hs ↦ ?_⟩
    obtain ⟨⟨ticket, rfl⟩, -⟩ := ht.running_of_success ha h hj hs
    exact h.ended_idle ht.nodup (x := (ticket, j)) rfl hi
  · rw [h.get?_of_ne (ha.ne_forgotten id) fun j hr he ↦ hj ⟨j, hr, he⟩]
    refine ht.unsucceeded id ((h.mem_active hi).resolve_right ?_)
    rintro ⟨p, hp, rfl⟩
    exact hj ⟨p.job, Event.record_of_entry hp, rfl⟩

theorem idle_effect (hj : d'.registry.get? id = some j) (hi : id ∉ d'.active) :
    j.finished = true := by
  have hguard := h.guard
  by_cases hk : ∃ k, ev.record? = some k ∧ id = k.id
  · obtain ⟨k, hk, rfl⟩ := hk
    rw [h.registry_insert hk, Registry.get?_insert_self] at hj
    obtain rfl := Option.some.inj hj
    cases ev with
    | quiet | forgotten => cases hk
    | submitted p | restarted p =>
      cases hk
      exact absurd (h.entry_active rfl) hi
    | launched | updated =>
      have hm := h.record_active trivial hk
      exact absurd ((h.mem_active_or_ended hm).resolve_right (by simp [Event.ending?])) hi
    | settled ticket k =>
      cases hk
      exact hguard.1
    | refused k =>
      cases hk
      obtain ⟨k, -, error, rfl⟩ := hguard
      rfl
  · rw [h.get?_of_ne (ha.ne_forgotten id) fun k hr he ↦ hk ⟨k, hr, he⟩] at hj
    refine ht.idle id j hj fun hm ↦ ?_
    rcases h.mem_active_or_ended hm with hm | ⟨x, hx, rfl⟩
    · exact hi hm
    · obtain rfl := Event.eq_settled hx
      exact hk ⟨x.2, rfl, rfl⟩

theorem detached_effect (hi : (d'.detached.get? id).isSome = true) :
    d'.registry.get? id = none := by
  obtain ⟨k, hk⟩ := Option.isSome_iff_exists.1 hi
  have hdet := h.detached id k hk
  have hr := ht.detached id (by rw [hdet]; rfl)
  rw [h.get?_of_ne (ha.ne_forgotten id), hr]
  rintro j hj rfl
  cases ev with
  | quiet | forgotten => cases hj
  | submitted p =>
    cases hj
    rw [ha.2.1] at hdet
    cases hdet
  | restarted | refused =>
    cases hj
    rw [h.resumed _ rfl] at hk
    cases hk
  | launched | updated | settled => exact ht.not_active hr (h.record_active trivial hj)

theorem launched_effect (hr : d'.HasRun id) : (d'.registry.get? id).isSome = true := by
  rcases h.hasRun_cases hr with hr | ⟨l, hl, rfl⟩
  · exact h.isSome_get? (ht.launched id hr) (ha.ne_forgotten id)
  · obtain rfl := Event.eq_launched hl
    obtain ⟨p, -, -, handle, rfl⟩ := h.guard
    rw [h.registry_insert rfl]
    exact Option.isSome_of_eq_some (Registry.get?_insert_self _ (p.job.touch now))

omit ha in
theorem running_effect (hi : id ∈ d'.runningIds) : d'.HasRun id := by
  rcases h.running id hi with hi | ⟨l, hl, rfl⟩
  · exact h.hasRun (ht.running id hi)
  · refine ⟨l, ?_, rfl⟩
    rw [h.launches]
    exact List.mem_append_right _ (Option.mem_toList.2 hl)

theorem registered_of_link (hl : Link d'.deps.entries job parent) :
    (d'.registry.get? job).isSome = true := by
  rcases h.link_cases hl with hl | ⟨p, rfl, rfl⟩
  · obtain ⟨e, he, -⟩ := link_iff.1 hl
    exact h.isSome_get? (ht.edge job e he).1 (ha.ne_forgotten job)
  · rw [h.registry_insert rfl, Registry.get?_insert_self]
    rfl

theorem agrees_effect {e : Edge} (he : e ∈ d'.deps.edgesOf job) :
    ∃ p, d'.registry.get? e.parent = some p ∧ e.Agrees p := by
  have hguard := h.guard
  have hg := h.graph
  cases ev with
  | quiet =>
    rw [hg] at he
    obtain ⟨-, k, hk, hek⟩ := ht.edge job e he
    exact h.agrees_kept ha hk hek fun j hj ↦ by cases hj
  | launched l =>
    rw [hg] at he
    obtain ⟨-, k, hk, hek⟩ := ht.edge job e he
    obtain ⟨p, hp, -, handle, rfl⟩ := hguard
    refine h.agrees_kept ha hk hek fun j hj hpar ↦ ?_
    cases hj
    change e.parent = p.job.id at hpar
    rw [hpar, ht.pending p hp, Option.some.injEq] at hk
    subst hk
    exact hek.congr (fun hf ↦ hf) Iff.rfl
  | updated j =>
    rw [hg] at he
    obtain ⟨-, k, hk, hek⟩ := ht.edge job e he
    refine h.agrees_kept ha hk hek fun j' hj hpar ↦ ?_
    cases hj
    refine .of_unfinished hguard.2 fun hs ↦ ?_
    refine ht.succeeded_active (List.mem_append_right _ hguard.1) ⟨k, ?_, hek.succeeded.1 hs⟩
    rw [← hpar, hk]
  | refused j =>
    rw [hg] at he
    obtain ⟨-, k, hk, hek⟩ := ht.edge job e he
    obtain ⟨k', hk', error, rfl⟩ := hguard
    refine h.agrees_kept ha hk hek fun j hj hpar ↦ ?_
    cases hj
    rw [hpar] at hk
    change d.registry.get? k'.id = some k at hk
    rw [ht.detached k'.id (by rw [hk']; rfl)] at hk
    cases hk
  | settled ticket j =>
    rw [hg] at he
    rcases mem_setParentFinished he with ⟨hpar, hm⟩ | ⟨hne, he⟩
    · refine ⟨j, by rw [h.registry_insert rfl, hpar, Registry.get?_insert_self], ?_⟩
      exact Edge.Mirrors.agrees ((Edge.mirrors_iff_of_finished hguard.1).2 hm)
    · obtain ⟨-, k, hk, hek⟩ := ht.edge job e he
      refine h.agrees_kept ha hk hek fun j' hj hpar ↦ ?_
      cases hj
      exact absurd hpar hne
  | submitted p =>
    obtain ⟨k, hk, hek⟩ : ∃ k, d.registry.get? e.parent = some k ∧ e.Agrees k := by
      rcases hg.edge job e he with he | ⟨k, hk, hm⟩
      · exact (ht.edge job e he).2
      · exact ⟨k, hk, hm.agrees⟩
    refine h.agrees_kept ha hk hek fun j hj hpar ↦ ?_
    cases hj
    rw [hpar, ha.1] at hk
    cases hk
  | restarted p =>
    rw [hg] at he
    obtain ⟨-, k, -, -, -, hp⟩ := hguard
    rcases Coherent.mem_edgesOf_restart ht.deps he with ⟨hpar, hf, -⟩ | ⟨hne, hm⟩
    · refine ⟨p.job, by rw [h.registry_insert rfl, hpar, Registry.get?_insert_self], ?_⟩
      refine .of_unfinished (by rw [hp]; rfl) fun hs ↦ ?_
      rw [hf] at hs
      cases hs.1
    · obtain ⟨k, hk, hek⟩ : ∃ k, d.registry.get? e.parent = some k ∧ e.Agrees k := by
        rcases hm with he | ⟨k, hk, hm⟩
        · exact (ht.edge job e he).2
        · exact ⟨k, hk, hm.agrees⟩
      refine h.agrees_kept ha hk hek fun j hj hpar ↦ ?_
      cases hj
      exact absurd hpar hne
  | forgotten => cases ha

/-- A job is launched while all its parents are successes, and succeeds only after a launch. -/
theorem vouched_effect (hr : d'.HasRun job ∨ d'.Succeeded job)
    (hl : Link d'.deps.entries job parent) : d'.Succeeded parent := by
  apply ht.succeeded_stays ha h
  have hold : Link d.deps.entries job parent := by
    refine (h.link_cases hl).resolve_right ?_
    rintro ⟨p, rfl, rfl⟩
    rcases hr with hr | ⟨j, hj, hs⟩
    · have hs := ht.launched _ ((h.hasRun_cases hr).resolve_right (by simp [Event.launch?]))
      rw [ha.1] at hs
      cases hs
    · rw [h.registry_insert rfl, Registry.get?_insert_self] at hj
      cases hj
      exact ha.2.2 hs
  rcases hr with hr | ⟨j, hj, hs⟩
  · rcases h.hasRun_cases hr with hr | ⟨l, hlaunch, rfl⟩
    · exact ht.vouched job (.inl hr) parent hold
    · obtain rfl := Event.eq_launched hlaunch
      obtain ⟨p, -, hready, handle, rfl⟩ := h.guard
      obtain ⟨e, he, rfl⟩ := link_iff.1 hold
      obtain ⟨-, k, hk, hek⟩ := ht.edge _ e he
      exact ⟨k, hk, hek.succeeded.1 (readiness_eq_ready_iff.1 hready e he)⟩
  · by_cases hk : ∃ k, ev.record? = some k ∧ job = k.id
    · obtain ⟨k, hk, rfl⟩ := hk
      rw [h.registry_insert hk, Registry.get?_insert_self] at hj
      cases hj
      obtain ⟨-, hrun⟩ := ht.running_of_success ha h hk hs
      exact ht.vouched _ (.inl (ht.running _ hrun)) parent hold
    · rw [h.get?_of_ne (ha.ne_forgotten job) fun k hr he ↦ hk ⟨k, hr, he⟩] at hj
      exact ht.vouched job (.inr ⟨j, hj, hs⟩) parent hold

theorem effect : d'.Lineage where
  deps := h.deps_wellFormed ht.deps
  nodup := ht.nodup_effect ha h
  handle _ hi := ht.handle_effect h hi
  pending _ hp := ht.pending_effect ha h hp
  unsucceeded _ hi := ht.unsucceeded_effect ha h hi
  idle _ _ hj hi := ht.idle_effect ha h hj hi
  detached _ hi := ht.detached_effect ha h hi
  launched _ hr := ht.launched_effect ha h hr
  running _ hi := ht.running_effect h hi
  edge _ e he := ⟨ht.registered_of_link ha h (link_iff.2 ⟨e, he, rfl⟩), ht.agrees_effect ha h he⟩
  vouched _ hr _ hl := ht.vouched_effect ha h hr hl

end Effect

theorem trace {events : List (Event τ)} (ht : d.Lineage) (h : Trace now d events d')
    (ha : ∀ ev ∈ events, (∀ p, ev ≠ .submitted p) ∧ ∀ id, ev ≠ .forgotten id) : d'.Lineage := by
  apply h.keeps (motive := Lineage)
  · intro d ev hev d' ht heff
    refine ht.effect ?_ heff
    obtain ⟨hs, hf⟩ := ha ev hev
    cases ev with
    | submitted p => exact absurd rfl (hs p)
    | forgotten id => exact absurd rfl (hf id)
    | quiet | restarted | launched | updated | settled | refused => trivial
  · exact ht

end Lineage

def Operation.submitted? : Operation τ → Option Job
  | .enqueue _ j | .enqueueAfter _ j _ => some j
  | _ => none

/-- Callers read the state file at the very beginning and submit jobs with new ids that have not
succeeded; no job is forgotten. -/
def Retained (past : List (Step τ)) (d : Dispatcher τ) (o : Operation τ) : Prop :=
  NewIds past d o ∧ (∀ id, ¬ o.Removes id) ∧ ∀ j, o.submitted? = some j → ¬ j.Succeeded

theorem Retained.of_proper (h : Proper past d o) (hr : ∀ id, ¬ o.Removes id) :
    Retained past d o := by
  refine ⟨h.newIds, hr, fun j hj hs ↦ ?_⟩
  cases o with
  | enqueue | enqueueAfter =>
    cases hj
    exact absurd (h.1.symm.trans hs.1) (by decide)
  | load | dispatchReady | report | taskOver | handleStop | restart | resume | clearIfFinished
  | prune | delayNext => cases hj

theorem Retained.not_removed (h : Retained past d o) (hc : o.Causes ev) (id : String) :
    ev ≠ .forgotten id := by
  rintro rfl
  exact h.2.1 id (Operation.removes_of_causes hc)

theorem Operation.not_submitted (ho : o.submitted? = none) (hc : o.Causes ev) (p : Pending τ) :
    ev ≠ .submitted p := by
  rintro rfl
  cases o with
  | enqueue | enqueueAfter => cases ho
  | load | dispatchReady | report | taskOver | handleStop | restart | resume | clearIfFinished
  | prune | delayNext => cases hc

theorem Run.lineage (h : Run Retained past d) : d.Lineage := by
  induction h with
  | start processors config runners =>
    exact lineage_of_idle (accounted_create processors config runners)
      (wellFormed_create processors config runners) rfl rfl rfl
  | @step past d now o hrun ho ih =>
    have hw := hrun.wellFormed
    have hrest (hload : ∀ s fs, o ≠ .load s fs) (hn : o.submitted? = none) :
        (d.perform now o).Lineage := by
      obtain ⟨events, ht, hc, -⟩ := hw.unfolds now hload
      exact ih.trace ht fun ev hev ↦ ⟨Operation.not_submitted hn (hc ev hev),
        ho.not_removed (hc ev hev)⟩
    cases o with
    | load s fs =>
      obtain ⟨rfl, hn⟩ := ho.1
      obtain ⟨processors, config, runners, rfl⟩ := hrun.eq_create
      have ha := (accounted_create processors config runners).takeUp (s.loadOrEmpty fs) hn
        (fun _ _ ↦ rfl) fun _ _ ↦ rfl
      have hw := hw.takeUp (s.loadOrEmpty fs)
      change ((create processors config runners).takeUp (s.loadOrEmpty fs)).Lineage
      obtain ⟨registry, detached, he⟩ := takeUp_eq (s.loadOrEmpty fs)
        (create processors config runners)
      rw [he] at ha hw ⊢
      exact lineage_of_idle ha hw rfl rfl rfl
    | enqueue task j =>
      obtain ⟨hr, hd, -⟩ := get?_of_not_used ho.1
      have ha : (Event.submitted (d.submission task j)).Admissible d := ⟨hr, hd, ho.2.2 j rfl⟩
      exact ih.effect ha (enqueue_effect hw now task j)
    | enqueueAfter task j parent =>
      by_cases hok : (d.enqueueAfter now task j parent).1.isOk = true
      · obtain ⟨hr, hd, -⟩ := get?_of_not_used ho.1
        have ha : (Event.submitted (d.submission task j)).Admissible d := ⟨hr, hd, ho.2.2 j rfl⟩
        exact ih.effect ha (enqueueAfter_effect hw task j parent hok)
      · rcases enqueueAfter_cases hw.deps now task j parent with ⟨c, he⟩ | ⟨p, -, -, he⟩
        · rw [perform, he]
          exact ih
        · rw [he] at hok
          exact absurd rfl hok
    | dispatchReady | report | taskOver | handleStop | restart | resume | clearIfFinished | prune
    | delayNext => exact hrest (by rintro s fs ⟨⟩) rfl

end Dispatcher

end JobEngine
