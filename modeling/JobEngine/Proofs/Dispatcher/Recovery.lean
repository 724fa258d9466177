import JobEngine.Proofs.Dispatcher.Accounting
import JobEngine.Proofs.Dispatcher.Snapshot
import JobEngine.Proofs.Store.Save

namespace JobEngine.Dispatcher

variable {σ τ : Type} {d d' e : Dispatcher τ} {now : Instant} {j : Job} {jobs rest : List Job}
  {id : String} {k n : Nat} {outcome : Job → Except Error (Job × τ)}

def recorded (now : Instant) (j : Job) : Except Error (Job × τ) → Job
  | .ok (again, _) => again
  | .error error => j.fail now ("not resumed: " ++ error.message)

/-- Detached jobs have been resumed or recorded as failed, `n` of them resumed. -/
structure Resumes (now : Instant) (outcome : Job → Except Error (Job × τ)) (jobs : List Job)
    (d : Dispatcher τ) (n : Nat) (e : Dispatcher τ) : Prop where
  count : n = (jobs.filterMap fun j ↦ (outcome j).toOption).length
  queue : e.queue.toList.map (fun p ↦ (p.job, p.task)) =
    d.queue.toList.map (fun p ↦ (p.job, p.task)) ++ jobs.filterMap fun j ↦ (outcome j).toOption
  record : ∀ j ∈ jobs, e.registry.get? j.id = some (recorded now j (outcome j))
  other : ∀ id ∉ jobs.map (·.id), e.registry.get? id = d.registry.get? id
  detached : ∀ id, e.detached.get? id =
    if id ∈ jobs.map (·.id) then none else d.detached.get? id

theorem Resumes.nil (d : Dispatcher τ) : Resumes now outcome [] d 0 d where
  count := rfl
  queue := by simp
  record := by simp
  other _ _ := rfl
  detached _ := by simp

theorem Resumes.cons (h : Resumes now outcome [j] d k d') (h' : Resumes now outcome rest d' n e)
    (hj : j.id ∉ rest.map (·.id)) : Resumes now outcome (j :: rest) d (n + k) e where
  count := by
    rw [h.count, h'.count, ← List.singleton_append (l := rest), List.filterMap_append,
      List.length_append, Nat.add_comm]
  queue := by
    rw [h'.queue, h.queue, List.append_assoc, ← List.filterMap_append, List.singleton_append]
  record := by
    intro i hi
    rcases List.mem_cons.1 hi with rfl | hi
    · rw [h'.other _ hj]
      exact h.record i List.mem_cons_self
    · exact h'.record i hi
  other := by
    intro id hi
    rw [List.map_cons, List.mem_cons, not_or] at hi
    rw [h'.other id hi.2, h.other id (by simpa using hi.1)]
  detached := by
    intro id
    rw [h'.detached, h.detached]
    by_cases hr : id ∈ rest.map (·.id)
    · simp only [hr, ↓reduceIte, List.map_cons, List.mem_cons, or_true]
    · simp [hr]

theorem Resumes.congr {outcome' : Job → Except Error (Job × τ)} (h : Resumes now outcome jobs d n e)
    (ho : ∀ j ∈ jobs, outcome j = outcome' j) : Resumes now outcome' jobs d n e := by
  have hf : jobs.filterMap (fun j ↦ (outcome j).toOption) =
      jobs.filterMap fun j ↦ (outcome' j).toOption :=
    List.filterMap_congr fun j hj ↦ by rw [ho j hj]
  refine ⟨hf ▸ h.count, hf ▸ h.queue, fun j hj ↦ ?_, h.other, h.detached⟩
  rw [← ho j hj]
  exact h.record j hj

theorem prepareRestart_congr (hc : e.config = d.config) (hr : e.runners = d.runners)
    (hh : e.handles.lookup j.id = d.handles.lookup j.id) :
    e.prepareRestart now j = d.prepareRestart now j := by
  simp only [prepareRestart, allowsRestart, hc, hr, hh]

theorem restart_of_not_registered (hr : d.registry.get? j.id = none) :
    d.restart now j = match d.prepareRestart now j with
      | .error error => (.error error, d)
      | .ok (again, task) => (.ok (), { d with
          deps := (d.deps.reopenParent j.id).refreshEdges j.id d.parentStatus
          detached := d.detached.erase j.id }.enqueue task again) := by
  cases hp : d.prepareRestart now j with
  | error error => simp only [restart, hr, Option.getD_none, hp]
  | ok x => simp only [restart, hr, Option.getD_none, hp]

theorem exists_resumes_head (now : Instant) (hv : d.queue.Valid) (hr : d.registry.get? j.id = none)
    (hh : d.handles.lookup j.id = none) (rest : List Job) :
    ∃ k e, resumeAll now (j :: rest) d = ((resumeAll now rest e).1 + k, (resumeAll now rest e).2) ∧
      Resumes now (d.prepareRestart now) [j] d k e ∧ e.queue.Valid ∧ e.config = d.config ∧
      e.runners = d.runners ∧ ∀ id ≠ j.id, e.handles.lookup id = d.handles.lookup id := by
  rw [resumeAll, restart_of_not_registered hr]
  cases hp : d.prepareRestart now j with
  | error error =>
    refine ⟨0, _, rfl, ⟨?_, ?_, ?_, fun id hi ↦ ?_, fun id ↦ ?_⟩, hv, rfl, rfl, fun _ _ ↦ rfl⟩
    · simp [hp, Except.toOption]
    · simp [hp, Except.toOption]
    · simp only [List.mem_singleton, forall_eq, hp, recorded]
      exact Registry.get?_insert_self _ (j.fail now _)
    · have hi : id ≠ j.id := by simpa using hi
      exact Registry.get?_insert_of_ne (j := j.fail now _) hi
    · simp [Registry.get?_erase]
  | ok x =>
    obtain ⟨again, task⟩ := x
    obtain ⟨-, -, rfl, -⟩ := prepareRestart_eq_ok hp
    have hl : d.handles.lookup (j.again now).id = none := hh
    obtain ⟨hv', hq⟩ := hv.enqueue ⟨d.fresh + 1, task, j.again now⟩
    simp only [enqueue, handleFor, hl]
    refine ⟨1, _, rfl, ⟨?_, ?_, ?_, fun id hi ↦ ?_, fun id ↦ ?_⟩, hv', rfl, rfl, fun id hi ↦ ?_⟩
    · simp [hp, Except.toOption]
    · simp [hq, hp, Except.toOption]
    · simp only [List.mem_singleton, forall_eq, hp, recorded]
      exact Registry.get?_insert_self _ (j.again now)
    · have hi : id ≠ j.id := by simpa using hi
      exact Registry.get?_insert_of_ne (j := j.again now) hi
    · simp [Registry.get?_erase]
    · exact (Lookup.lookup_cons _ _ _).trans (if_neg hi)

/-- The outcome of each restart is known beforehand, as no job gets in the way of another. -/
theorem resumeAll_resumes (hv : d.queue.Valid) (hn : (jobs.map (·.id)).Nodup)
    (hj : ∀ j ∈ jobs, d.registry.get? j.id = none ∧ d.handles.lookup j.id = none ∧
      d.prepareRestart now j = outcome j) :
    Resumes now outcome jobs d (resumeAll now jobs d).1 (resumeAll now jobs d).2 := by
  induction jobs generalizing d with
  | nil => exact .nil d
  | cons j rest ih =>
    rw [List.map_cons, List.nodup_cons] at hn
    obtain ⟨hr, hh, hp⟩ := hj j List.mem_cons_self
    obtain ⟨k, e, he, h, hv', hc, hrun, hlook⟩ := exists_resumes_head now hv hr hh rest
    have h : Resumes now outcome [j] d k e := h.congr (by simpa using hp)
    rw [he]
    refine h.cons (ih hv' hn.2 fun i hi ↦ ?_) hn.1
    obtain ⟨hri, hhi, hpi⟩ := hj i (List.mem_cons_of_mem _ hi)
    have hne : i.id ≠ j.id := fun he ↦ hn.1 (he ▸ List.mem_map_of_mem hi)
    refine ⟨?_, (hlook _ hne).trans hhi, ?_⟩
    · rw [h.other _ (by simpa using hne), hri]
    · rw [prepareRestart_congr hc hrun (hlook _ hne), hpi]

theorem Resumes.queued (h : Resumes now outcome jobs d n e) (hd : d.queue.toList = [])
    (ho : ∀ j again task, outcome j = .ok (again, task) → again.id = j.id) :
    e.queued = (jobs.filter fun j ↦ (outcome j).toOption.isSome).map (·.id) := by
  have hq := congrArg (List.map fun x : Job × τ ↦ x.1.id) h.queue
  rw [hd, List.map_nil, List.nil_append, List.map_map] at hq
  refine (show e.queued = _ from hq).trans ?_
  clear hq h
  induction jobs with
  | nil => rfl
  | cons j jobs ih =>
    cases hj : outcome j with
    | error error => simpa [hj, Except.toOption] using ih
    | ok x =>
      have hid := ho j x.1 x.2 hj
      simpa [hj, Except.toOption, hid] using ih

/-- Whether a job that an earlier run left unfinished may have another attempt. -/
def Resumable (config : JobsConfig) (runners : Runners τ) (now : Instant) (j : Job) : Prop :=
  j.numRestarts < config.maxRestarts ∧
    ∃ r task, runners.get? j.kind = some r ∧ r.build (j.again now) = .ok task

section Recover

variable (processors : UInt64) (config : JobsConfig) (runners : Runners σ) (now : Instant)

def recover (jobs : List Job) : Nat × Dispatcher σ :=
  ((create processors config runners).takeUp jobs).resume now

theorem maxRestarts_create :
    (create processors config runners).config.maxRestarts = config.maxRestarts := by
  rw [create, JobsConfig.normalize]
  split <;> rfl

variable {config runners now}

theorem prepareRestart_create_eq_ok_iff {again : Job} {task : σ} (hf : j.finished = false) :
    (create processors config runners).prepareRestart now j = .ok (again, task) ↔
      again = j.again now ∧ j.numRestarts < config.maxRestarts ∧
        ∃ r, runners.get? j.kind = some r ∧ r.build again = .ok task := by
  rw [← maxRestarts_create processors config runners]
  constructor
  · intro h
    obtain ⟨ha, -, hagain, hr⟩ := prepareRestart_eq_ok h
    exact ⟨hagain, (allowsRestart_eq_ok_iff.1 ha).2, hr⟩
  · rintro ⟨rfl, hcap, r, hr, hb⟩
    have ha : (create processors config runners).allowsRestart j = .ok () :=
      allowsRestart_eq_ok_iff.2 ⟨by simp [hf], hcap⟩
    have hh : (create processors config runners).handles.lookup j.id = none := rfl
    have hr : (create processors config runners).runners.get? j.kind = some r := hr
    simp [prepareRestart, ha, hh, hr, hb, bind, Except.bind, pure, Except.pure]

theorem resumable_iff (hf : j.finished = false) : Resumable config runners now j ↔
    ∃ task, (create processors config runners).prepareRestart now j = .ok (j.again now, task) := by
  simp only [prepareRestart_create_eq_ok_iff processors hf, Resumable, true_and]
  constructor
  · rintro ⟨hcap, r, task, hr, hb⟩
    exact ⟨task, hcap, r, hr, hb⟩
  · rintro ⟨task, hcap, r, hr, hb⟩
    exact ⟨hcap, r, task, hr, hb⟩

variable (config runners now)

theorem mem_detached_takeUp (hn : (jobs.map (·.id)).Nodup) :
    j ∈ ((create processors config runners).takeUp jobs).detached.listed ↔
      j ∈ jobs ∧ j.finished = false := by
  have hw := (wellFormed_create processors config runners).takeUp jobs
  rw [Registry.mem_listed, hw.detached.mem_jobs_iff]
  constructor
  · intro hj
    by_cases hm : j.id ∈ jobs.map (·.id)
    · obtain ⟨k, hk, hid⟩ := List.mem_map.1 hm
      have hd := (get?_takeUp (d := create processors config runners) hn hk).2
      rw [hid, hj] at hd
      cases hf : k.finished with
      | true =>
        rw [hf] at hd
        cases hd
      | false =>
        rw [hf] at hd
        cases hd
        exact ⟨hk, hf⟩
    · rw [(get?_takeUp_of_not_mem hm).2] at hj
      cases hj
  · rintro ⟨hj, hf⟩
    rw [(get?_takeUp hn hj).2, hf]
    rfl

theorem resumes_recover (hn : (jobs.map (·.id)).Nodup) :
    Resumes now ((create processors config runners).prepareRestart now)
      ((create processors config runners).takeUp jobs).detached.listed
      ((create processors config runners).takeUp jobs)
      (recover processors config runners now jobs).1
      (recover processors config runners now jobs).2 := by
  have hw := (wellFormed_create processors config runners).takeUp jobs
  refine resumeAll_resumes hw.queue (Registry.nodup_listed_ids hw.detached) fun j hj ↦ ?_
  obtain ⟨hj, hf⟩ := (mem_detached_takeUp processors config runners hn).1 hj
  have hr := (get?_takeUp (d := create processors config runners) hn hj).1
  obtain ⟨registry, detached, he⟩ := takeUp_eq jobs (create processors config runners)
  refine ⟨?_, ?_, ?_⟩
  · rw [hr, hf]
    rfl
  · rw [he]
    rfl
  · rw [he]
    exact prepareRestart_congr rfl rfl rfl

/-- The jobs that may run again are queued in the order in which the detached ones are listed. -/
theorem exists_queued_recover (hn : (jobs.map (·.id)).Nodup) :
    ∃ js : List Job,
      js.Sublist ((create processors config runners).takeUp jobs).detached.listed ∧
      (∀ j, j ∈ js ↔ j ∈ jobs ∧ j.finished = false ∧ Resumable config runners now j) ∧
      (recover processors config runners now jobs).2.queued = js.map (·.id) := by
  obtain ⟨registry, detached, he⟩ := takeUp_eq jobs (create processors config runners)
  have hid (j again : Job) (task : σ)
      (ho : (create processors config runners).prepareRestart now j = .ok (again, task)) :
      again.id = j.id := by
    obtain ⟨-, -, rfl, -⟩ := prepareRestart_eq_ok ho
    rfl
  have hok (j : Job) (hf : j.finished = false) :
      (((create processors config runners).prepareRestart now j).toOption.isSome = true ↔
        Resumable config runners now j) := by
    rw [resumable_iff processors hf]
    cases ho : (create processors config runners).prepareRestart now j with
    | error error => simp [Except.toOption]
    | ok x =>
      obtain ⟨-, -, hx, -⟩ := prepareRestart_eq_ok ho
      simp [Except.toOption, Prod.ext_iff, hx]
  have hq := (resumes_recover processors config runners now hn).queued (by rw [he]; rfl) hid
  refine ⟨_, List.filter_sublist, fun j ↦ ?_, hq⟩
  rw [List.mem_filter, mem_detached_takeUp processors config runners hn, and_assoc,
    and_congr_right_iff]
  exact fun _ ↦ and_congr_right fun hf ↦ hok j hf

namespace WellFormed

theorem get?_takeUp_snapshot (h : d.WellFormed) (id : String) :
    ((create processors config runners).takeUp d.snapshot).registry.get? id =
        (d.known? id).filter (·.finished) ∧
      ((create processors config runners).takeUp d.snapshot).detached.get? id =
        (d.known? id).filter (!·.finished) := by
  cases hk : d.known? id with
  | none =>
    refine get?_takeUp_of_not_mem fun hm ↦ ?_
    rw [h.mem_snapshot_ids, ← isSome_known?_iff, hk] at hm
    cases hm
  | some j =>
    obtain rfl := h.id_of_known? hk
    obtain ⟨hr, hd⟩ := get?_takeUp (d := create processors config runners) h.nodup_snapshot
      (h.mem_snapshot.2 hk)
    rw [hr, hd]
    cases hf : j.finished <;> simp [Option.filter_some, hf, create]

theorem mem_listed_takeUp (h : d.WellFormed) :
    j ∈ ((create processors config runners).takeUp d.snapshot).detached.listed ↔
      d.known? j.id = some j ∧ j.finished = false := by
  rw [mem_detached_takeUp processors config runners h.nodup_snapshot, h.mem_snapshot]

theorem get?_recover (h : d.WellFormed) (id : String) :
    (recover processors config runners now d.snapshot).2.registry.get? id =
      (d.known? id).map fun j ↦ if j.finished then j else
        recorded now j ((create processors config runners).prepareRestart now j) := by
  have hr := resumes_recover processors config runners now h.nodup_snapshot
  have htaken := (h.get?_takeUp_snapshot processors config runners id).1
  have hother (hk : ∀ j, d.known? id = some j → j.finished = true) :
      id ∉ (((create processors config runners).takeUp d.snapshot).detached.listed).map
        (·.id) := by
    intro hm
    obtain ⟨j, hj, rfl⟩ := List.mem_map.1 hm
    obtain ⟨hj, hf⟩ := (h.mem_listed_takeUp processors config runners).1 hj
    rw [hk j hj] at hf
    cases hf
  cases hk : d.known? id with
  | none =>
    rw [hr.other id (hother (by simp [hk])), htaken, hk]
    rfl
  | some j =>
    obtain rfl := h.id_of_known? hk
    cases hf : j.finished with
    | true =>
      rw [hr.other j.id (hother (by simp [hk, hf])), htaken, hk]
      simp [Option.filter_some, hf]
    | false =>
      rw [hr.record j ((h.mem_listed_takeUp processors config runners).2 ⟨hk, hf⟩)]
      simp [hf]

theorem queued_recover (h : d.WellFormed) :
    (recover processors config runners now d.snapshot).2.queued.Nodup ∧
    ∀ id, id ∈ (recover processors config runners now d.snapshot).2.queued ↔
      ∃ j, d.known? id = some j ∧ j.finished = false ∧ Resumable config runners now j := by
  have hw := (wellFormed_create processors config runners).takeUp d.snapshot
  obtain ⟨js, hsub, hmem, hq⟩ :=
    exists_queued_recover processors config runners now h.nodup_snapshot
  rw [hq]
  refine ⟨(Registry.nodup_listed_ids hw.detached).sublist (hsub.map _), fun id ↦ ?_⟩
  simp only [List.mem_map, hmem, h.mem_snapshot]
  constructor
  · rintro ⟨j, ⟨hk, hf, hr⟩, rfl⟩
    exact ⟨j, hk, hf, hr⟩
  · rintro ⟨j, hk, hf, hr⟩
    obtain rfl := h.id_of_known? hk
    exact ⟨j, ⟨hk, hf, hr⟩, rfl⟩

theorem exists_pending_recover (h : d.WellFormed) (hk : d.known? j.id = some j)
    (hf : j.finished = false) (hr : Resumable config runners now j) :
    ∃ p ∈ (recover processors config runners now d.snapshot).2.queue.toList,
      p.job = j.again now := by
  obtain ⟨task, ho⟩ := (resumable_iff processors hf).1 hr
  obtain ⟨registry, detached, he⟩ := takeUp_eq d.snapshot (create processors config runners)
  have hq := (resumes_recover processors config runners now h.nodup_snapshot).queue
  have hm : (j.again now, task) ∈
      (recover processors config runners now d.snapshot).2.queue.toList.map
        fun p ↦ (p.job, p.task) := by
    rw [hq]
    have hj := (h.mem_listed_takeUp processors config runners).2 ⟨hk, hf⟩
    refine List.mem_append_right _ (List.mem_filterMap.2 ⟨j, hj, ?_⟩)
    rw [ho]
    rfl
  obtain ⟨p, hp, hpt⟩ := List.mem_map.1 hm
  exact ⟨p, hp, congrArg (·.1) hpt⟩

theorem detached_recover (h : d.WellFormed) :
    (recover processors config runners now d.snapshot).2.detached.jobs = [] := by
  have hw : (recover processors config runners now d.snapshot).2.WellFormed :=
    ((wellFormed_create processors config runners).takeUp d.snapshot).resume now
  refine List.eq_nil_iff_forall_not_mem.2 fun j hj ↦ ?_
  rw [hw.detached.mem_jobs_iff,
    (resumes_recover processors config runners now h.nodup_snapshot).detached] at hj
  split at hj
  · cases hj
  · next hm =>
    rw [(h.get?_takeUp_snapshot processors config runners j.id).2, Option.filter_eq_some_iff,
      Bool.not_eq_true', ← h.mem_listed_takeUp processors config runners] at hj
    exact hm (List.mem_map_of_mem hj)

theorem recover_fst (h : d.WellFormed) :
    (recover processors config runners now d.snapshot).1 =
      (recover processors config runners now d.snapshot).2.queue.size := by
  obtain ⟨registry, detached, he⟩ := takeUp_eq d.snapshot (create processors config runners)
  have hr := resumes_recover processors config runners now h.nodup_snapshot
  have hq := congrArg List.length hr.queue
  rw [List.length_map, he] at hq
  rw [hr.count, he, Queue.size, hq]
  rfl

end WellFormed

/-- A dispatcher that starts from a checkpoint knows the same jobs. -/
theorem checkpoint_resumed {ok : List (Step τ) → Dispatcher τ → Operation τ → Prop}
    {past : List (Step τ)} (h : Run ok past d) {s : Store} {fs fs' : FileSystem}
    (hs : d.checkpoint s fs = (.ok (), fs')) (hv : Store.Survives d.snapshot) :
    let resumed := ((create processors config runners).loadState s fs').2.resume now
    let e := resumed.2
    (∀ id, (e.registry.jobs.map (·.id)).count id = if d.Knows id then 1 else 0) ∧
    (∀ id j, d.known? id = some j → j.finished = true →
      e.registry.get? id = some j ∧ id ∉ e.queued) ∧
    (∀ id j, d.known? id = some j → j.finished = false → Resumable config runners now j →
      e.queued.count id = 1 ∧ ∃ p ∈ e.queue.toList, e.registry.get? id = some p.job ∧
        p.job.finished = false ∧ p.job.error = none ∧ p.job.id = id ∧
        p.job.corpusId = j.corpusId ∧ p.job.work = j.work ∧
        p.job.numRestarts.toNat = j.numRestarts.toNat + 1) ∧
    (∀ id j, d.known? id = some j → j.finished = false → ¬ Resumable config runners now j →
      id ∉ e.queued ∧ ∃ k cause, e.registry.get? id = some k ∧ k.finished = true ∧
        k.error = some ("not resumed: " ++ cause)) ∧
    e.detached.jobs = [] ∧ resumed.1 = e.queue.size := by
  have hw := h.wellFormed
  have he : ((create processors config runners).loadState s fs').2.resume now =
      recover processors config runners now d.snapshot := by
    rw [loadState, (Store.holds_of_save hs).loadOrEmpty hv, recover]
  rw [he]
  intro resumed e
  have hget (id : String) : e.registry.get? id =
      (d.known? id).map fun j ↦ if j.finished then j else
        recorded now j ((create processors config runners).prepareRestart now j) :=
    hw.get?_recover processors config runners now id
  have hkeyed : e.WellFormed := ((wellFormed_create processors config runners).takeUp _).resume now
  obtain ⟨hn, hqueued⟩ : e.queued.Nodup ∧ ∀ id, id ∈ e.queued ↔
      ∃ j, d.known? id = some j ∧ j.finished = false ∧ Resumable config runners now j :=
    hw.queued_recover processors config runners now
  refine ⟨fun id ↦ ?_, fun id j hk hf ↦ ⟨?_, fun hm ↦ ?_⟩, fun id j hk hf hr ↦ ⟨?_, ?_⟩,
    fun id j hk hf hr ↦ ⟨fun hm ↦ ?_, ?_⟩, hw.detached_recover processors config runners now,
    hw.recover_fst processors config runners now⟩
  · simp only [hkeyed.registry.count_ids, hget, Option.isSome_map, isSome_known?_iff]
  · rw [hget, hk, Option.map_some, if_pos hf]
  · obtain ⟨k, hk', hf', -⟩ := (hqueued id).1 hm
    rw [hk, Option.some.injEq] at hk'
    rw [← hk', hf] at hf'
    cases hf'
  · rw [hn.count, if_pos ((hqueued id).2 ⟨j, hk, hf, hr⟩)]
  · obtain rfl := hw.id_of_known? hk
    obtain ⟨p, hp, hpj⟩ := hw.exists_pending_recover processors config runners now hk hf hr
    obtain ⟨task, ho⟩ := (resumable_iff processors hf).1 hr
    refine ⟨p, hp, ?_, ?_⟩
    · rw [hget, hk, Option.map_some, if_neg (by simp [hf]), ho, hpj]
      rfl
    · rw [hpj]
      exact ⟨rfl, rfl, rfl, rfl, rfl, toNat_again hr.1 now⟩
  · obtain ⟨k, hk', -, hr'⟩ := (hqueued id).1 hm
    rw [hk, Option.some.injEq] at hk'
    exact hr (hk' ▸ hr')
  · rw [hget, hk, Option.map_some, if_neg (by simp [hf])]
    cases ho : (create processors config runners).prepareRestart now j with
    | error error => exact ⟨_, error.message, rfl, rfl, rfl⟩
    | ok x =>
      obtain ⟨-, -, hx, -⟩ := prepareRestart_eq_ok ho
      exact absurd ((resumable_iff processors hf).2 ⟨x.2, by rw [ho, ← hx]⟩) hr

end Recover

theorem snapshot_sample :
    sample.2.snapshot = [(sampleJob "first").finish sampleInstant, sampleJob "second"] := by
  have hl : sample.2.registry.listed = sample.2.registry.jobs :=
    List.mergeSort_of_pairwise (by decide +kernel)
  rw [snapshot, hl]
  decide +kernel

def syncRunners : Runners Unit := ⟨[⟨.corpusSync, fun _ ↦ .ok ()⟩]⟩

theorem checkpoint_resumed_sample :
    let s : Store := ⟨"jobs.json"⟩
    let fs := (sample.2.checkpoint s {}).2
    let restart n := (((create 1 { maxRestarts := n } syncRunners).loadState s fs).2.resume
      sampleInstant).2
    (restart 1).registry.get? "first" = some ((sampleJob "first").finish sampleInstant) ∧
      (restart 1).queued.count "second" = 1 ∧
      ∃ k cause, (restart 0).registry.get? "second" = some k ∧
        k.error = some ("not resumed: " ++ cause) := by
  intro s fs restart
  have hs : sample.2.checkpoint s {} = (.ok (), fs) := Prod.ext (Store.save_first _) rfl
  have hv : Store.Survives sample.2.snapshot := by
    rw [snapshot_sample]
    exact Store.survives_of_entriesOf? (by decide +kernel)
  have hr : Resumable { maxRestarts := 1 } syncRunners sampleInstant (sampleJob "second") :=
    ⟨by decide, ⟨.corpusSync, fun _ ↦ .ok ()⟩, (), rfl, rfl⟩
  have hn : ¬ Resumable { maxRestarts := 0 } syncRunners sampleInstant (sampleJob "second") :=
    fun hr ↦ absurd hr.1 (by decide)
  obtain ⟨-, hfirst, hsecond, -⟩ :=
    checkpoint_resumed 1 { maxRestarts := 1 } syncRunners sampleInstant sample_run hs hv
  obtain ⟨-, -, -, hrefused, -⟩ :=
    checkpoint_resumed 1 { maxRestarts := 0 } syncRunners sampleInstant sample_run hs hv
  obtain ⟨-, k, cause, hk, -, he⟩ := hrefused "second" _ (by decide +kernel) rfl hn
  exact ⟨(hfirst "first" _ (by decide +kernel) rfl).1,
    (hsecond "second" _ (by decide +kernel) rfl hr).1, k, cause, hk, he⟩

end JobEngine.Dispatcher
