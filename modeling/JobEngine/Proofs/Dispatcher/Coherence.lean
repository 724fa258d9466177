import JobEngine.Proofs.Dispatcher.Accounting

namespace JobEngine

/-- An edge tells how its parent stands. -/
def Edge.Mirrors (e : Edge) (j : Job) : Prop := e.finished = j.finished ∧ e.hasError = j.failed

namespace Edge

variable {e : Edge} {j : Job}

theorem mirrors_iff_of_unfinished (h : j.finished = false) :
    e.Mirrors j ↔ e.finished = false ∧ e.hasError = false := by
  simp [Mirrors, Job.failed, h]

theorem mirrors_iff_of_finished (h : j.finished = true) :
    e.Mirrors j ↔ e.finished = true ∧ e.hasError = j.error.isSome := by
  simp [Mirrors, Job.failed, h]

end Edge

namespace Dispatcher

open DependencyGraph

variable {τ : Type} {d d' : Dispatcher τ} {gone : String → Option Job} {now : Instant} {b : Bool}
  {j : Job} {id : String}

/-- The edges are right if `gone` has the last records of jobs that left the registry. It may know
jobs that are still there as well. -/
structure Coherent (d : Dispatcher τ) (gone : String → Option Job) : Prop where
  mirror : ∀ job, ∀ e ∈ d.deps.edgesOf job,
    ∃ j, (d.registry.get? e.parent).or (gone e.parent) = some j ∧ e.Mirrors j
  finished : ∀ id j, d.registry.get? id = none → gone id = some j → j.finished = true
  detached : ∀ id, (d.detached.get? id).isSome = true → gone id = none

theorem coherent_of_no_edges (h : d.deps.entries = []) : d.Coherent fun _ ↦ none where
  mirror := by simp [edgesOf, h]
  finished := by simp
  detached := by simp

theorem takeUp_deps (jobs : List Job) (d : Dispatcher τ) : (d.takeUp jobs).deps = d.deps :=
  takeUp_induction (motive := fun e ↦ e.deps = d.deps) (fun _ _ h ↦ h) (fun _ _ h ↦ h) jobs rfl

namespace Coherent

theorem parent_ne (h : d.Coherent gone) (hr : d.registry.get? id = none) (hg : gone id = none)
    {job : String} {e : Edge} (he : e ∈ d.deps.edgesOf job) : e.parent ≠ id := by
  rintro rfl
  obtain ⟨j, hj, -⟩ := h.mirror job e he
  rw [hr, hg] at hj
  cases hj

/-- A record is replaced. The edges to its job must tell about the new one, the other edges stay as
they are or are read anew from the registry. -/
theorem insert (h : d.Coherent gone) (hr : d'.registry = d.registry.insert j)
    (hd : ∀ id, (d'.detached.get? id).isSome = true → (d.detached.get? id).isSome = true)
    (hself : ∀ job, ∀ e ∈ d'.deps.edgesOf job, e.parent = j.id → e.Mirrors j)
    (hne : ∀ job, ∀ e ∈ d'.deps.edgesOf job, e.parent ≠ j.id → e ∈ d.deps.edgesOf job ∨
      ∃ p, d.registry.get? e.parent = some p ∧ e.Mirrors p) : d'.Coherent gone := by
  refine ⟨fun job e he ↦ ?_, fun id k hn ↦ h.finished id k ?_, fun id hi ↦ h.detached id (hd id hi)⟩
  · rw [hr, Registry.get?_insert]
    by_cases hp : e.parent = j.id
    · exact ⟨j, by rw [if_pos hp, Option.some_or], hself job e he hp⟩
    · rw [if_neg hp]
      rcases hne job e he hp with he | ⟨p, hp, hm⟩
      · exact h.mirror job e he
      · exact ⟨p, by rw [hp, Option.some_or], hm⟩
  · rw [hr, Registry.get?_insert] at hn
    split at hn
    · cases hn
    · exact hn

theorem update (h : d.Coherent gone) (hu : d.Unfinished j.id) (hf : j.finished = false) :
    { d with registry := d.registry.insert j }.Coherent gone := by
  refine h.insert rfl (fun _ ↦ id) (fun job e he hp ↦ ?_) fun job e he _ ↦ .inl he
  obtain ⟨k, hk, hkf⟩ := hu
  obtain ⟨k', hk', hm⟩ := h.mirror job e he
  rw [hp, hk, Option.some_or, Option.some.injEq] at hk'
  subst hk'
  rw [Edge.mirrors_iff_of_unfinished hkf] at hm
  rwa [Edge.mirrors_iff_of_unfinished hf]

theorem finalize (h : d.Coherent gone) (hf : j.finished = true) :
    (d.finalize j).Coherent gone := by
  refine h.insert (j := j) rfl (fun _ ↦ id) (fun job e he hp ↦ ?_) fun job e he hp ↦ ?_
  · rcases mem_setParentFinished he with ⟨-, hm⟩ | ⟨hp', -⟩
    · exact (Edge.mirrors_iff_of_finished hf).2 hm
    · exact absurd hp hp'
  · rcases mem_setParentFinished he with ⟨hp', -⟩ | ⟨-, he⟩
    · exact absurd hp' hp
    · exact .inl he

theorem register (h : d.Coherent gone) (hr : d.registry.get? j.id = none)
    (hg : gone j.id = none) : { d with registry := d.registry.insert j }.Coherent gone :=
  h.insert rfl (fun _ ↦ id) (fun _ _ he hp ↦ absurd hp (h.parent_ne hr hg he))
    fun _ _ he _ ↦ .inl he

theorem eraseDetached (h : d.Coherent gone) (id : String) :
    { d with detached := d.detached.erase id }.Coherent gone :=
  { h with
    detached := fun id' hi ↦ by
      rw [Registry.get?_erase] at hi
      split at hi
      · cases hi
      · exact h.detached id' hi }

theorem handleFor (h : d.Coherent gone) (id : String) : (d.handleFor id).2.Coherent gone := by
  rcases handleFor_cases d id with ⟨n, -, he⟩ | ⟨-, he⟩
  · rw [he]
    exact h
  · rw [he]
    exact { h with }

theorem look (h : d.Coherent gone) (ha : d.Accounted []) (hw : d.WellFormed)
    (hl : d.look now = some (d', b)) : d'.Coherent gone := by
  obtain ⟨p, queue, n, -, hlist, -, hl⟩ := ha.looked_of_look hw hl
  have hp : p ∈ d.queue.toList := by
    rw [hlist]
    exact List.mem_cons_self
  cases hl with
  | cancelled => exact { h.finalize (j := p.job.fail now _) rfl with }
  | launched =>
    have hu : d.Unfinished p.job.id :=
      (ha.unfinished_iff _).2 (by simp [active, queued, List.mem_map_of_mem hp])
    exact { h.update (j := p.job.touch now) hu (ha.pending p hp) with }
  | postponed => exact { h with }
  | skipped => exact { h.finalize (j := p.job.fail now _) rfl with }

theorem endAttempt (h : d.Coherent gone) (a : Attempt) (hf : j.finished = true) :
    (d.endAttempt a j).Coherent gone :=
  { h.finalize hf with }

theorem report (h : d.Coherent gone) (ha : d.Accounted []) (ticket : Nat) (j : Job) :
    (d.report ticket j).Coherent gone := by
  rcases report_cases d ticket j with he | ⟨a, hm, -, hj, ⟨hf, he⟩ | ⟨hf, he⟩⟩
  · rw [he]
    exact h
  · rw [he]
    exact h.endAttempt a hf
  · have hu : d.Unfinished j.id := by
      rw [ha.unfinished_iff, hj]
      exact List.mem_append_left _ (List.mem_append_right _ (List.mem_map_of_mem hm))
    rw [he]
    exact { h.update hu hf with }

theorem taskOver (h : d.Coherent gone) (now : Instant) (ticket : Nat) (panicked : Bool) :
    (d.taskOver now ticket panicked).Coherent gone := by
  rcases taskOver_cases d now ticket panicked with he | ⟨a, -, error, he⟩
  · rw [he]
    exact h
  · rw [he]
    exact h.endAttempt a rfl

theorem handleStop (h : d.Coherent gone) (now : Instant) (id : String) :
    (d.handleStop now id).Coherent gone := by
  rcases handleStop_cases d now id with ⟨-, he⟩ | ⟨n, -, ⟨-, he⟩ | ⟨p, queue, -, he⟩⟩
  · rw [he]
    exact h
  · rw [he]
    exact { h with }
  · rw [he]
    exact { h.finalize (j := p.job.fail now _) rfl with }

theorem delayNext (h : d.Coherent gone) : d.delayNext.2.Coherent gone := by
  obtain ⟨queue, he⟩ := delayNext_eq d
  rw [he]
  exact { h with }

theorem enqueue (h : d.Coherent gone) (task : τ) (hr : d.registry.get? j.id = none)
    (hg : gone j.id = none) : (d.enqueue task j).Coherent gone := by
  have he := h.handleFor j.id
  have hreg : (d.handleFor j.id).2.registry = d.registry := by
    rcases handleFor_cases d j.id with ⟨n, -, he⟩ | ⟨-, he⟩ <;> rw [he]
  exact { he.register (by rwa [hreg]) hg with }

theorem mem_edgesOf_enqueueAfter (hw : d.WellFormed) {task : τ} {parent job : String} {p : Job}
    (hp : d.registry.get? parent = some p) {e : Edge}
    (hm : e ∈ (d.enqueueAfter now task j parent).2.deps.edgesOf job) :
    e ∈ d.deps.edgesOf job ∨ e.parent = parent ∧ e.Mirrors p := by
  rcases enqueueAfter_cases hw.deps now task j parent with ⟨_, he⟩ | ⟨p', hp', -, he⟩
  · rw [he] at hm
    exact .inl hm
  · rw [hp, Option.some.injEq] at hp'
    subst hp'
    rw [he] at hm
    dsimp only at hm
    split at hm
    · next hf =>
      rcases mem_setParentFinished hm with ⟨hpar, hm⟩ | ⟨hpar, hm⟩
      · exact .inr ⟨hpar, (Edge.mirrors_iff_of_finished hf).2 hm⟩
      · refine .inl ((mem_edgesOf_add hw.deps hm).resolve_right ?_)
        rintro rfl
        exact hpar rfl
    · next hf =>
      refine (mem_edgesOf_add hw.deps hm).imp_right ?_
      rintro rfl
      exact ⟨rfl, (Edge.mirrors_iff_of_unfinished (by simpa using hf)).2 ⟨rfl, rfl⟩⟩

theorem enqueueAfter (h : d.Coherent gone) (hw : d.WellFormed) (now : Instant) (task : τ)
    (parent : String) (hl : d.handles.lookup j.id = none) (hr : d.registry.get? j.id = none)
    (hg : gone j.id = none) : (d.enqueueAfter now task j parent).2.Coherent gone := by
  rcases enqueueAfter_cases hw.deps now task j parent with ⟨e, he⟩ | ⟨p, hp, -, he⟩
  · rw [he]
    exact h
  · refine h.insert (j := j) ?_ ?_ (fun job e hm hpar ↦ ?_) fun job e hm _ ↦ ?_
    · rw [he]
      simp only [Dispatcher.enqueue, Dispatcher.handleFor, hl]
    · rw [he]
      simp only [Dispatcher.enqueue, Dispatcher.handleFor, hl]
      exact fun _ ↦ id
    · rcases mem_edgesOf_enqueueAfter hw hp hm with hm | ⟨hpar', -⟩
      · exact absurd hpar (h.parent_ne hr hg hm)
      · rw [← hpar', hpar, hr] at hp
        cases hp
    · refine (mem_edgesOf_enqueueAfter hw hp hm).imp_right ?_
      rintro ⟨hpar, hm⟩
      exact ⟨p, by rw [hpar, hp], hm⟩

/-- The edges to the restarted job are pending again. Its own edges are read anew; none of them
leads to the job itself. -/
theorem mem_edgesOf_restart (hw : d.deps.WellFormed) {job : String} {e : Edge}
    (hm : e ∈ ((d.deps.reopenParent id).refreshEdges id d.parentStatus).edgesOf job) :
    (e.parent = id ∧ e.finished = false ∧ e.hasError = false) ∨
      e.parent ≠ id ∧ (e ∈ d.deps.edgesOf job ∨
        ∃ p, d.registry.get? e.parent = some p ∧ e.Mirrors p) := by
  rw [edgesOf_refreshEdges] at hm
  split at hm
  · next hj =>
    subst hj
    obtain ⟨e₀, he₀, rfl⟩ := List.mem_map.1 hm
    have hself : e₀.parent ≠ job := fun hp ↦
      (hw.reopenParent job).acyclic job (.single (link_iff.2 ⟨e₀, he₀, hp⟩))
    have he₀ := ((mem_reopenParent he₀).resolve_left fun hp ↦ hself hp.1).2
    refine .inr ⟨by rwa [refresh_parent], ?_⟩
    cases hr : d.registry.get? e₀.parent with
    | none => exact .inl (by simpa [Edge.refresh, parentStatus, hr] using he₀)
    | some p =>
      exact .inr ⟨p, by rwa [refresh_parent],
        by simp [Edge.refresh, parentStatus, hr, Edge.Mirrors, Job.failed]⟩
  · exact (mem_reopenParent hm).imp_right (And.imp_right .inl)

theorem restart (h : d.Coherent gone) (hw : d.WellFormed) (now : Instant) (j : Job) :
    (d.restart now j).2.Coherent gone := by
  rcases restart_cases d now j with ⟨e, he⟩ | ⟨task, current, -, -, hl, -, he⟩
  · rw [he]
    exact h
  · have hl' : d.handles.lookup (current.again now).id = none := hl
    rw [he]
    refine h.insert (j := current.again now) ?_ (fun id hi ↦ ?_) (fun job e hm hpar ↦ ?_)
      fun job e hm hpar ↦ ?_
    · simp only [Dispatcher.enqueue, Dispatcher.handleFor, hl']
    · simp only [Dispatcher.enqueue, Dispatcher.handleFor, hl', Registry.get?_erase] at hi
      split at hi
      · cases hi
      · exact hi
    · rcases mem_edgesOf_restart hw.deps hm with ⟨-, hm⟩ | ⟨hp, -⟩
      · exact (Edge.mirrors_iff_of_unfinished rfl).2 hm
      · exact absurd hpar hp
    · rcases mem_edgesOf_restart hw.deps hm with ⟨hp, -⟩ | ⟨-, hm⟩
      · exact absurd hp hpar
      · exact hm

theorem refuse (h : d.Coherent gone) (ha : d.Accounted [])
    (hd : (d.detached.get? j.id).isSome = true) (now : Instant) (error : String) :
    { d with
      detached := d.detached.erase j.id
      registry := d.registry.insert (j.fail now error) }.Coherent gone :=
  (h.eraseDetached j.id).register (j := j.fail now error) (ha.detached j.id hd) (h.detached j.id hd)

theorem forget (h : d.Coherent gone) (hg : ∀ j, d.registry.get? id = some j → gone id = some j)
    (hf : ∀ j, gone id = some j → j.finished = true) : (d.forget id).Coherent gone := by
  refine ⟨fun job e he ↦ ?_, fun id' j hr hj ↦ ?_, h.detached⟩
  · have he : e ∈ d.deps.edgesOf job := by
      change e ∈ (d.deps.remove id).2.edgesOf job at he
      rw [edgesOf_remove] at he
      split at he
      · cases he
      · exact he
    obtain ⟨j, hj, hm⟩ := h.mirror job e he
    refine ⟨j, ?_, hm⟩
    change ((d.registry.erase id).get? e.parent).or (gone e.parent) = some j
    rw [Registry.get?_erase]
    split
    · next hp =>
      rw [hp] at hj ⊢
      cases hr : d.registry.get? id with
      | none => simpa [hr] using hj
      | some k =>
        rw [hr, Option.some_or] at hj
        rw [Option.none_or, hg k hr, hj]
    · exact hj
  · change (d.registry.erase id).get? id' = none at hr
    rw [Registry.get?_erase] at hr
    split at hr
    · next hi => exact hf j (hi ▸ hj)
    · exact h.finished id' j hr hj

theorem clearIfFinished (h : d.Coherent gone)
    (hg : ∀ id j, d.registry.get? id = some j → gone id = some j) (id : String) :
    (d.clearIfFinished id).2.Coherent gone := by
  rcases clearIfFinished_cases d id with he | ⟨j, hj, hf, he⟩
  · rw [he]
    exact h
  · rw [he]
    refine h.forget (hg id) fun k hk ↦ ?_
    rw [hg id j hj, Option.some.injEq] at hk
    exact hk ▸ hf

theorem pruneBefore (h : d.Coherent gone) (hw : d.WellFormed)
    (hg : ∀ id j, d.registry.get? id = some j → gone id = some j) (cutoff : Instant) :
    (d.pruneBefore cutoff).2.Coherent gone := by
  have hjobs : ∀ j ∈ d.expired cutoff, gone j.id = some j ∧ j.finished = true := by
    intro j hj
    obtain ⟨hj, hf⟩ := List.mem_filter.1 hj
    exact ⟨hg _ _ (hw.registry.get?_of_mem_jobs hj), (Bool.and_eq_true_iff.1 hf).1⟩
  unfold Dispatcher.pruneBefore
  generalize d.expired cutoff = jobs at *
  clear hw
  induction jobs generalizing d with
  | nil => exact h
  | cons j jobs ih =>
    obtain ⟨hj, hf⟩ := hjobs j List.mem_cons_self
    have hd := h.forget (hg j.id) fun k hk ↦ by
      rw [hj, Option.some.injEq] at hk
      exact hk ▸ hf
    refine ih hd (fun id k hk ↦ hg id k ?_) fun j' hj' ↦ hjobs j' (List.mem_cons_of_mem _ hj')
    change (d.registry.erase j.id).get? id = some k at hk
    rw [Registry.get?_erase] at hk
    split at hk
    · cases hk
    · exact hk

theorem remember {past : List (Step τ)} (h : d.Coherent (lastRecord past)) (ha : d.Accounted []) :
    d.Coherent (latest past d) := by
  refine ⟨fun job e he ↦ ?_, fun id j hr hj ↦ ?_, fun id hi ↦ ?_⟩
  · obtain ⟨j, hj, hm⟩ := h.mirror job e he
    exact ⟨j, by rw [latest, ← Option.or_assoc, Option.or_self, hj], hm⟩
  · rw [latest, hr, Option.none_or] at hj
    exact h.finished id j hr hj
  · rw [latest, ha.detached id hi, h.detached id hi, Option.none_or]

end Coherent

structure Sound (d : Dispatcher τ) (gone : String → Option Job) : Prop where
  wellFormed : d.WellFormed
  accounted : d.Accounted []
  coherent : d.Coherent gone

namespace Sound

theorem look (h : d.Sound gone) (hl : d.look now = some (d', b)) : d'.Sound gone where
  wellFormed := h.wellFormed.look hl
  accounted := h.accounted.look h.wellFormed hl
  coherent := h.coherent.look h.accounted h.wellFormed hl

theorem lookAll (h : d.Sound gone) (now : Instant) (n : Nat) (settled : Bool) :
    (lookAll now n d settled).1.Sound gone :=
  lookAll_induction (motive := (Sound · gone)) (fun _ _ _ h hl ↦ h.look hl) n h settled

theorem dispatchReady (h : d.Sound gone) (now : Instant) : (d.dispatchReady now).Sound gone := by
  have hl := h.lookAll now d.queue.size false
  rcases dispatchReady_cases d now with he | he
  · rw [he]
    exact hl
  · rw [he]
    exact ⟨hl.wellFormed.wake, { hl.accounted with }, { hl.coherent with }⟩

theorem resume (h : d.Sound gone) (now : Instant) : (d.resume now).2.Sound gone :=
  WellFormed.resume_induction (motive := (Sound · gone)) (fun _ h ↦ h.wellFormed)
    (fun _ j h _ ↦
      ⟨h.wellFormed.restart now j, h.accounted.restart h.wellFormed now j,
        h.coherent.restart h.wellFormed now j⟩)
    (fun _ _ error h hd ↦
      ⟨h.wellFormed.refuse _ _, h.accounted.refuse hd now error,
        h.coherent.refuse h.accounted hd now error⟩) h

end Sound

theorem Coherent.perform {past : List (Step τ)} (h : d.Coherent (lastRecord past))
    (hrun : Run Proper past d) (now : Instant) (o : Operation τ) (ho : Proper past d o) :
    (d.perform now o).Coherent (latest past d) := by
  have hw := hrun.wellFormed
  have ha := hrun.accounted
  have hr := h.remember ha
  have hs : d.Sound (latest past d) := ⟨hw, ha, hr⟩
  have hg : ∀ id j, d.registry.get? id = some j → latest past d id = some j := fun id j hj ↦ by
    rw [latest, hj, Option.some_or]
  cases o with
  | load s fs =>
    obtain ⟨rfl, -⟩ := ho
    obtain ⟨processors, config, runners, rfl⟩ := hrun.eq_create
    refine coherent_of_no_edges ?_
    change ((create processors config runners).takeUp (s.loadOrEmpty fs)).deps.entries = []
    rw [takeUp_deps]
    rfl
  | enqueue task j =>
    obtain ⟨hn, -, hl⟩ := get?_of_not_used ho.2
    exact hr.enqueue task hn (by rw [latest, hn, hl, Option.none_or])
  | enqueueAfter task j parent =>
    obtain ⟨hn, -, hl⟩ := get?_of_not_used ho.2
    exact hr.enqueueAfter hw now task parent (ha.lookup_eq_none hn) hn
      (by rw [latest, hn, hl, Option.none_or])
  | dispatchReady => exact (hs.dispatchReady now).coherent
  | report ticket j => exact hr.report ha ticket j
  | taskOver ticket panicked => exact hr.taskOver now ticket panicked
  | handleStop id => exact hr.handleStop now id
  | restart j => exact hr.restart hw now j
  | resume => exact (hs.resume now).coherent
  | clearIfFinished id => exact hr.clearIfFinished hg id
  | prune age =>
    rcases prune_cases d now age with he | ⟨cutoff, he⟩
    · rw [he]
      exact hr
    · rw [he]
      exact hr.pruneBefore hw hg cutoff
  | delayNext => exact hr.delayNext

theorem Run.coherent {past : List (Step τ)} (h : Run Proper past d) :
    d.Coherent (lastRecord past) := by
  induction h with
  | start processors config runners => exact coherent_of_no_edges rfl
  | @step past d now o hrun ho ih =>
    have hl : lastRecord (⟨d, now, o⟩ :: past) = latest past d :=
      funext fun id ↦ lastRecord_cons d now o past id
    rw [hl]
    exact ih.perform hrun now o ho

theorem Run.sound {past : List (Step τ)} (h : Run Proper past d) : d.Sound (lastRecord past) :=
  ⟨h.wellFormed, h.accounted, h.coherent⟩

theorem readiness_eq (d : Dispatcher τ) (id : String) :
    d.readiness id =
      if (d.deps.edgesOf id).any (·.hasError) then .parentFailed
      else if (d.deps.edgesOf id).any (!·.finished) then .waiting
      else .ready := by
  unfold readiness hasFailedParent mustWait edges edgesOf
  cases d.deps.entries.lookup id with
  | none => rfl
  | some es =>
    simp only [Except.map, Option.getD_some]
    by_cases hf : es.any (·.hasError) = true
    · simp [hf]
    · by_cases hw : es.any (!·.finished) = true
      · simp [hf, hw]
      · simp [hf, hw]

/-- How the records of its parents have the queue judge a job. -/
def judge (record : String → Option Job) (parents : List String) : Readiness :=
  if parents.any fun p ↦ (record p).any Job.failed then .parentFailed
  else if parents.any fun p ↦ (record p).any (!·.finished) then .waiting
  else .ready

theorem any_parents {record : String → Option Job} {es : List Edge} {f : Edge → Bool}
    {g : Job → Bool}
    (h : ∀ e ∈ es, ∃ j, record e.parent = some j ∧ f e = g j) :
    (es.map (·.parent)).any (fun p ↦ (record p).any g) = es.any f := by
  rw [List.any_map, Bool.eq_iff_iff, List.any_eq_true, List.any_eq_true]
  refine exists_congr fun e ↦ and_congr_right fun he ↦ ?_
  obtain ⟨j, hj, hf⟩ := h e he
  simp [hj, hf]

/-- The edges tell of every registered parent how it stands, and of every other one how it stood
when it left the registry. So the queue judges jobs by the current records of their parents. -/
theorem edges_mirror_records {past : List (Step τ)} (h : Run Proper past d) :
    (∀ job es, d.deps.edges job = .ok es → ∀ e ∈ es,
      (∀ p, d.registry.get? e.parent = some p →
        e.finished = p.finished ∧ e.hasError = (p.finished && p.error.isSome)) ∧
      (d.registry.get? e.parent = none → e.finished = true ∧
        ∃ p, lastRecord past e.parent = some p ∧ e.hasError = p.error.isSome)) ∧
    ∀ job, d.readiness job = judge (latest past d) (parents d.deps.entries job) := by
  have hc := h.coherent
  refine ⟨fun job es hes e he ↦ ?_, fun job ↦ ?_⟩
  · obtain ⟨j, hj, hm⟩ := hc.mirror job e (by rwa [edgesOf_of_edges hes])
    refine ⟨fun p hp ↦ ?_, fun hn ↦ ?_⟩
    · rw [hp, Option.some_or, Option.some.injEq] at hj
      exact hj ▸ hm
    · rw [hn, Option.none_or] at hj
      have hf := hc.finished _ j hn hj
      rw [Edge.mirrors_iff_of_finished hf] at hm
      exact ⟨hm.1, j, hj, hm.2⟩
  · have hfailed : (parents d.deps.entries job).any (fun p ↦ (latest past d p).any Job.failed) =
        (d.deps.edgesOf job).any (·.hasError) :=
      any_parents fun e he ↦ (hc.mirror job e he).imp fun _ hj ↦ ⟨hj.1, hj.2.2⟩
    have hwaiting : (parents d.deps.entries job).any
        (fun p ↦ (latest past d p).any (!·.finished)) = (d.deps.edgesOf job).any (!·.finished) :=
      any_parents fun e he ↦ (hc.mirror job e he).imp fun _ hj ↦ ⟨hj.1, congrArg _ hj.2.1⟩
    rw [readiness_eq, judge, hfailed, hwaiting]

theorem edges_mirror_records_sample :
    (∀ e ∈ sample.2.deps.edgesOf "second", e.parent = "first" ∧ e.finished = true) ∧
    sample.2.readiness "second" =
      judge (latest sample.1 sample.2) (parents sample.2.deps.entries "second") :=
  ⟨by decide +kernel, (edges_mirror_records sample_run).2 "second"⟩

end Dispatcher

end JobEngine
