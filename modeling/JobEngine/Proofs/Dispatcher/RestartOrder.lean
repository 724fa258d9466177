import JobEngine.Proofs.Dispatcher.Parents
import JobEngine.Proofs.Dispatcher.Recovery
import JobEngine.Proofs.Dispatcher.Shutdown
import JobEngine.Proofs.Store.RoundTrip

namespace JobEngine.Dispatcher

variable {σ τ : Type} {d d' : Dispatcher τ} {now : Instant} {b : Bool} {c j p : Job} {id : String}
  {o : Operation τ} {jobs js : List Job} {past : List (Step τ)} {s : Store} {fs fs' : FileSystem}
  {steps : List (Instant × Operation τ)}

/-- Nothing holds a queued job back: there are no dependencies, and nobody was told to stop. -/
structure Unbound (d : Dispatcher τ) : Prop where
  dependents : d.dependents = []
  cancelled : d.cancelled = []

namespace Unbound

theorem not_dependent (h : d.Unbound) (id : String) : id ∉ d.dependents := by
  rw [h.dependents]
  exact List.not_mem_nil

theorem perform (h : d.Unbound) (hw : d.WellFormed) (now : Instant)
    (ha : ∀ task j parent, o ≠ .enqueueAfter task j parent) (hs : ∀ id, o ≠ .handleStop id) :
    (d.perform now o).Unbound := by
  refine ⟨List.eq_nil_iff_forall_not_mem.2 fun id hm ↦ ?_, ?_⟩
  · rcases mem_dependents_perform hw hm with hm | ⟨task, j, parent, he, -⟩
    · exact h.not_dependent id hm
    · exact ha task j parent he
  · rw [cancelled_perform hw now hs, h.cancelled]

theorem look (h : d.Unbound) (hw : d.WellFormed) (hl : d.look now = some (d', b)) :
    d'.Unbound ∧ d'.started = d.started := by
  refine ⟨⟨(dependents_look hl).trans h.dependents, (look_heeds hl).1.trans h.cancelled⟩, ?_⟩
  obtain ⟨p, queue, -, hq, hl⟩ := look_cases hl
  obtain ⟨-, hlist⟩ := hw.queue.dequeue_eq_some hq
  obtain ⟨handles, fresh, he, -⟩ := handleFor_eq d p.job.id
  have hready : d.readiness p.job.id = .ready := readiness_of_independent (h.not_dependent _)
  rw [he] at hl
  cases hl with
  | cancelled hc =>
    -- no handle has been used to stop anybody
    have hc : d.cancelled.contains (d.handleFor p.job.id).1 = true := hc
    rw [h.cancelled] at hc
    cases hc
  | launched => exact started_launch hlist _ _
  | postponed hr | skipped hr => cases hready.symm.trans hr

theorem dispatchReady (h : d.Unbound) (hw : d.WellFormed) (now : Instant) :
    (d.dispatchReady now).started = d.started := by
  have hlook (e e' : Dispatcher τ) (b : Bool)
      (he : e.WellFormed ∧ e.Unbound ∧ e.started = d.started) (hl : e.look now = some (e', b)) :
      e'.WellFormed ∧ e'.Unbound ∧ e'.started = d.started := by
    obtain ⟨hu, hs⟩ := he.2.1.look he.1 hl
    exact ⟨he.1.look hl, hu, hs.trans he.2.2⟩
  obtain ⟨wakeup, he⟩ := dispatchReady_eq d now
  rw [he]
  exact (lookAll_induction hlook d.queue.size ⟨hw, h, rfl⟩ false).2.2

theorem proceed (h : d.Unbound) (hw : d.WellFormed) (now : Instant)
    (ho : o = .dispatchReady ∨ o.Reacts) :
    (d.perform now o).Unbound ∧ (d.perform now o).started = d.started := by
  have hkeep : (d.perform now o).Unbound := by
    apply h.perform hw now
    · rintro task j parent rfl
      exact ho.elim nofun fun ho ↦ ho
    · rintro id rfl
      exact ho.elim nofun fun ho ↦ ho
  refine ⟨hkeep, ?_⟩
  rcases ho with rfl | ho
  · exact h.dispatchReady hw now
  · cases o with
    | report ticket j =>
      rcases report_cases d ticket j with he | ⟨a, -, -, -, ⟨-, he⟩ | ⟨-, he⟩⟩
      · rw [Dispatcher.perform, he]
      · rw [Dispatcher.perform, he]
        rfl
      · rw [Dispatcher.perform, he]
        rfl
    | taskOver ticket panicked =>
      rcases taskOver_cases d now ticket panicked with he | ⟨a, -, error, he⟩
      · rw [Dispatcher.perform, he]
      · rw [Dispatcher.perform, he]
        rfl
    | _ => exact absurd ho not_false

theorem execute (h : d.Unbound) (hw : d.WellFormed)
    (hs : ∀ x ∈ steps, x.2 = .dispatchReady ∨ x.2.Reacts) :
    (d.execute steps).Unbound ∧ (d.execute steps).started = d.started := by
  induction steps generalizing d with
  | nil => exact ⟨h, rfl⟩
  | cons x steps ih =>
    obtain ⟨hx, hs⟩ := List.forall_mem_cons.1 hs
    obtain ⟨hu, he⟩ := h.proceed hw x.1 hx
    obtain ⟨hu', he'⟩ := ih hu (hw.perform x.1 x.2) hs
    exact ⟨hu', he'.trans he⟩

end Unbound

/-- A new dispatcher has the resumed jobs in its queue, by start, and nothing holds them back. -/
theorem recover_ordered (processors : UInt64) (config : JobsConfig) (runners : Runners σ)
    (now : Instant) (hn : (jobs.map (·.id)).Nodup) :
    let e := (recover processors config runners now jobs).2
    e.WellFormed ∧ e.Unbound ∧ ∃ js : List Job, js.Pairwise (·.start ≤ ·.start) ∧
      (js.map (·.id)).Nodup ∧
      (∀ j, j ∈ js ↔ j ∈ jobs ∧ j.finished = false ∧ Resumable config runners now j) ∧
      e.started = js.map (·.id) := by
  intro e
  have hc : (create processors config runners).WellFormed :=
    wellFormed_create processors config runners
  have hw := hc.takeUp jobs
  obtain ⟨registry, detached, he⟩ := takeUp_eq jobs (create processors config runners)
  have hu : ((create processors config runners).takeUp jobs).Unbound := by
    rw [he]
    exact ⟨rfl, rfl⟩
  have hresumed : (((create processors config runners).takeUp jobs).perform now .resume).Unbound :=
    hu.perform hw now (by rintro task j parent ⟨⟩) (by rintro id ⟨⟩)
  have hl : (((create processors config runners).takeUp jobs).perform now .resume).launches =
      ((create processors config runners).takeUp jobs).launches := hw.launches_eq now nofun
  have hnone : ((create processors config runners).takeUp jobs).launches = [] := by
    rw [he]
    rfl
  obtain ⟨js, hsub, hmem, hq⟩ := exists_queued_recover processors config runners now hn
  refine ⟨hw.resume now, hresumed, js, (Registry.listed_sorted _).sublist hsub,
    (Registry.nodup_listed_ids hw.detached).sublist (hsub.map _), hmem, ?_⟩
  change List.map _ (((create processors config runners).takeUp jobs).perform now .resume).launches
    ++ e.queued = _
  rw [hl, hnone]
  exact hq

/-- A job that is unfinished when shutdown begins, and does not end for reasons of its own. -/
structure LeftUnfinished (d : Dispatcher τ) (steps : List (Instant × Operation τ)) (j : Job) :
    Prop where
  record : d.registry.get? j.id = some j
  unfinished : j.finished = false
  stopped : ∀ t, (d.cancelAll.execute steps).registry.get? j.id = some t → t.finished = true →
    interrupted t = true

namespace LeftUnfinished

theorem of_not_running (hw : d.WellFormed) (hr : ∀ x ∈ steps, x.2.Reacts)
    (hj : d.registry.get? j.id = some j) (hf : j.finished = false) (hi : j.id ∉ d.runningIds) :
    LeftUnfinished d steps j := by
  refine ⟨hj, hf, fun t ht htf ↦ ?_⟩
  have hrec : (d.cancelAll.execute steps).registry.get? j.id = d.registry.get? j.id :=
    hw.cancelAll.execute_of_not_running hr hi
  rw [hrec, hj, Option.some.injEq] at ht
  rw [← ht, hf] at htf
  cases htf

theorem saved (h : LeftUnfinished d steps j) (hw : d.WellFormed) :
    j ∈ d.snapshot.map (d.cancelAll.execute steps).settle := by
  refine List.mem_map.2 ⟨j, hw.mem_snapshot.2 (by rw [known?, h.record, Option.some_or]), ?_⟩
  rcases settle_cases (d.cancelAll.execute steps) j with ⟨t, ht, hf, hi, -⟩ | ⟨-, he⟩
  · rw [h.stopped t ht hf] at hi
    cases hi
  · exact he

end LeftUnfinished

theorem sublist_of_start_lt (hs : js.Pairwise (·.start ≤ ·.start)) (hp : p ∈ js) (hc : c ∈ js)
    (hlt : p.start < c.start) : [p, c].Sublist js := by
  obtain ⟨as, bs, rfl⟩ := List.append_of_mem hc
  have hp : p ∈ as := by
    rcases List.mem_append.1 hp with hp | hp
    · exact hp
    · rcases List.mem_cons.1 hp with rfl | hp
      · exact absurd hlt (Int.lt_irrefl _)
      · have hle := (List.pairwise_cons.1 (List.pairwise_append.1 hs).2.1).1 p hp
        exact absurd hlt (Int.not_lt.2 hle)
  exact (List.singleton_sublist.2 hp).append (List.singleton_sublist.2 List.mem_cons_self)

theorem launched_in_order (hn : d.started.Nodup) {first second : String}
    (hs : [first, second].Sublist d.started)
    (hm : second ∈ d.launches.map (·.attempt.id)) :
    [first, second].Sublist (d.launches.map (·.attempt.id)) := by
  obtain ⟨-, -, hdisj⟩ := List.nodup_append.1 hn
  obtain ⟨l₁, l₂, he, h₁, h₂⟩ := List.sublist_append_iff.1 hs
  -- the pair would end in the queue, where its second part is not
  have hq : second ∉ l₂ := fun hq ↦ hdisj second hm second (h₂.subset hq) rfl
  rcases List.eq_nil_or_concat l₂ with rfl | ⟨l, x, rfl⟩
  · rw [List.append_nil] at he
    exact he ▸ h₁
  · have hx := congrArg List.getLast? he
    rw [List.concat_eq_append, ← List.append_assoc, List.getLast?_concat] at hx
    obtain rfl : second = x := Option.some.inj hx
    exact absurd (by simp) hq

/-- The order in which jobs started survives a restart of the process, their dependencies do not.
The new dispatcher launches what it resumes by start. So a job that was only queued is not launched
before an unfinished one that started earlier, whether it was waiting for that one or not; but
nothing makes it wait until that one has finished. Settings that are nested too deeply to be read
back leave nothing to resume. -/
theorem restart_keeps_order {ok : List (Step τ) → Dispatcher τ → Operation τ → Prop}
    (h : Run ok past d) (hr : ∀ x ∈ steps, x.2.Reacts)
    (hs : (d.cancelAll.execute steps).saveFinal d.snapshot s fs = (.ok (), fs'))
    (processors : UInt64) (config : JobsConfig) (runners : Runners σ) (now : Instant)
    {later : List (Instant × Operation σ)}
    (hlater : ∀ x ∈ later, x.2 = .dispatchReady ∨ x.2.Reacts) :
    let saved := d.snapshot.map (d.cancelAll.execute steps).settle
    let loaded := s.loadOrEmpty fs'
    let e := (((create processors config runners).loadState s fs').2.resume now).2.execute later
    let launched := e.launches.map (·.attempt.id)
    e.deps.entries = [] ∧
    (Store.Shallow saved → loaded = saved.map Job.reread) ∧ (¬ Store.Shallow saved → loaded = []) ∧
    (∃ js : List Job, js.Pairwise (·.start ≤ ·.start) ∧
      (∀ j, j ∈ js ↔ j ∈ loaded ∧ j.finished = false ∧ Resumable config runners now j) ∧
      launched ++ e.queued = js.map (·.id)) ∧
    ∀ p c, LeftUnfinished d steps p → Resumable config runners now p.reread →
      d.registry.get? c.id = some c → c.finished = false → c.id ∉ d.runningIds →
      Resumable config runners now c.reread → p.start < c.start →
      (Store.Shallow saved → [p.id, c.id].Sublist (launched ++ e.queued)) ∧
      (c.id ∈ launched → [p.id, c.id].Sublist launched) := by
  intro saved loaded e launched
  have hw := h.wellFormed
  obtain ⟨hh, hcount⟩ := hw.saveFinal_holds hs
  have hshallow : Store.Shallow saved → loaded = saved.map Job.reread := hh.loadOrEmpty_of_shallow
  have hdeep : ¬ Store.Shallow saved → loaded = [] := hh.loadOrEmpty_of_deep
  have hids : (saved.map (·.id)).Nodup := by
    rw [List.nodup_iff_count_le_one]
    intro id
    rw [hcount]
    split <;> omega
  obtain ⟨hwr, hu, js, hsorted, hn, hmem, hstarted⟩ :=
    recover_ordered processors config runners now (hh.nodup_loadOrEmpty hids)
  obtain ⟨hu', hstarted'⟩ := hu.execute hwr hlater
  have hall : launched ++ e.queued = js.map (·.id) := hstarted'.trans hstarted
  refine ⟨List.map_eq_nil_iff.1 hu'.dependents, hshallow, hdeep, ⟨js, hsorted, hmem, hall⟩, ?_⟩
  intro p c hp hrp hc hcf hi hrc hlt
  have hsub (hd : Store.Shallow saved) : [p.id, c.id].Sublist (launched ++ e.queued) := by
    have hread {j : Job} (hj : j ∈ saved) : j.reread ∈ loaded := by
      rw [hshallow hd]
      exact List.mem_map_of_mem hj
    have hpj : p.reread ∈ js := (hmem _).2 ⟨hread (hp.saved hw), hp.unfinished, hrp⟩
    have hcs : c ∈ saved := (LeftUnfinished.of_not_running hw hr hc hcf hi).saved hw
    have hcj : c.reread ∈ js := (hmem _).2 ⟨hread hcs, hcf, hrc⟩
    rw [hall]
    exact (sublist_of_start_lt hsorted hpj hcj hlt).map (·.id)
  refine ⟨hsub, fun hl ↦ ?_⟩
  by_cases hd : Store.Shallow saved
  · exact launched_in_order (d := e) (by rw [started, hall]; exact hn) (hsub hd) hl
  · -- nothing was resumed, so nothing was launched
    have hid : c.id ∈ js.map (·.id) := hall ▸ List.mem_append_left _ hl
    obtain ⟨j, hj, -⟩ := List.mem_map.1 hid
    have hj : j ∈ loaded := ((hmem j).1 hj).1
    rw [hdeep hd] at hj
    cases hj

def sampleLater : Job :=
  Job.create "second" "corpus"
    { sampleInstant with second := 43201, second_lt := by decide, leap := by decide }
    (.corpusSync none)

def sampleChain : List (Step Unit) × Dispatcher Unit :=
  replay sampleInstant [] (create 1 {} {})
    [.enqueue () (sampleJob "first"), .enqueueAfter () sampleLater "first", .dispatchReady]

theorem sampleChain_run : Run Proper sampleChain.1 sampleChain.2 := by
  have h : Run Proper [] (create 1 {} ({} : Runners Unit)) := .start 1 {} {}
  have h := h.step sampleInstant (.enqueue () (sampleJob "first")) (by decide +kernel)
  have h := h.step sampleInstant (.enqueueAfter () sampleLater "first") (by decide +kernel)
  exact h.step sampleInstant .dispatchReady trivial

def sampleStoppedChain : Dispatcher Unit :=
  sampleChain.2.cancelAll.execute (failing 1 "first" Text.jobCancelled)

theorem sampleChain_saved :
    sampleChain.2.snapshot.map sampleStoppedChain.settle = [sampleJob "first", sampleLater] := by
  have hl : sampleChain.2.registry.listed = sampleChain.2.registry.jobs :=
    List.mergeSort_of_pairwise (by decide +kernel)
  rw [snapshot, hl]
  decide +kernel

theorem sampleChain_save : ∃ fs : FileSystem,
    sampleStoppedChain.saveFinal sampleChain.2.snapshot ⟨"jobs.json"⟩ {} = (.ok (), fs) :=
  ⟨_, Prod.ext (Store.save_first _) rfl⟩

theorem sampleChain_survives : Store.Survives [sampleJob "first", sampleLater] :=
  Store.survives_of_entriesOf? (by decide +kernel)

def sampleNext : Dispatcher Unit :=
  create 1 { maxConcurrent := 2, maxRestarts := 1 } syncRunners

def sampleResumed : Dispatcher Unit :=
  (resumeAll sampleInstant [sampleJob "first", sampleLater]
    (sampleNext.takeUp [sampleJob "first", sampleLater])).2.dispatchReady sampleInstant

theorem sampleNext_resumed {fs : FileSystem}
    (hs : sampleStoppedChain.saveFinal sampleChain.2.snapshot ⟨"jobs.json"⟩ {} = (.ok (), fs)) :
    ((sampleNext.loadState ⟨"jobs.json"⟩ fs).2.resume sampleInstant).2.execute
      [(sampleInstant, .dispatchReady)] = sampleResumed := by
  have hbefore : Registry.listedBefore sampleLater (sampleJob "first") = false := by
    decide +kernel
  have hjobs : (sampleNext.takeUp [sampleJob "first", sampleLater]).detached.jobs =
      [sampleLater, sampleJob "first"] := by decide +kernel
  have hlisted : (sampleNext.takeUp [sampleJob "first", sampleLater]).detached.listed =
      [sampleJob "first", sampleLater] := by
    rw [Registry.listed, hjobs]
    simp [List.mergeSort, hbefore]
  rw [saveFinal, sampleChain_saved] at hs
  rw [loadState, (Store.holds_of_save hs).loadOrEmpty sampleChain_survives, resume, hlisted]
  rfl

theorem sampleChain_resumable :
    Resumable { maxConcurrent := 2, maxRestarts := 1 } syncRunners sampleInstant
        (sampleJob "first") ∧
      Resumable { maxConcurrent := 2, maxRestarts := 1 } syncRunners sampleInstant sampleLater :=
  ⟨⟨by decide, ⟨.corpusSync, fun _ ↦ .ok ()⟩, (), rfl, rfl⟩,
    ⟨by decide, ⟨.corpusSync, fun _ ↦ .ok ()⟩, (), rfl, rfl⟩⟩

theorem restart_keeps_order_sample : ∃ fs : FileSystem,
    sampleStoppedChain.saveFinal sampleChain.2.snapshot ⟨"jobs.json"⟩ {} = (.ok (), fs) ∧
      sampleChain.2.queued = ["second"] ∧ sampleChain.2.runningIds = ["first"] ∧
      let e := ((sampleNext.loadState ⟨"jobs.json"⟩ fs).2.resume sampleInstant).2.execute
        [(sampleInstant, .dispatchReady)]
      e.deps.entries = [] ∧ e.runningIds = ["first", "second"] ∧
      ["first", "second"].Sublist (e.launches.map (·.attempt.id)) := by
  obtain ⟨fs, hsave⟩ := sampleChain_save
  refine ⟨fs, hsave, by decide +kernel, by decide +kernel, ?_⟩
  have hlater : ∀ x ∈ [(sampleInstant, (.dispatchReady : Operation Unit))],
      x.2 = .dispatchReady ∨ x.2.Reacts := by simp
  have hfirst : LeftUnfinished sampleChain.2 (failing 1 "first" Text.jobCancelled)
      (sampleJob "first") := by
    have hstopped : sampleStoppedChain.registry.get? "first" =
        some ((sampleJob "first").fail sampleInstant Text.jobCancelled) := by decide +kernel
    refine ⟨by decide +kernel, rfl, fun t ht _ ↦ ?_⟩
    cases hstopped.symm.trans ht
    decide
  obtain ⟨hdeps, -, -, -, hpair⟩ := restart_keeps_order sampleChain_run (failing_reacts _ _ _)
    hsave 1 { maxConcurrent := 2, maxRestarts := 1 } syncRunners sampleInstant hlater
  obtain ⟨-, hsub⟩ := hpair (sampleJob "first") sampleLater hfirst sampleChain_resumable.1
    (by decide +kernel) rfl (by decide +kernel) sampleChain_resumable.2 (by decide +kernel)
  have he := sampleNext_resumed hsave
  refine ⟨hdeps, he ▸ (by decide +kernel), hsub ?_⟩
  exact he ▸ (by decide +kernel : "second" ∈ sampleResumed.launches.map (·.attempt.id))

/-- A job does not wait for its parents any more after a restart of the process. -/
theorem dependencies_not_restored :
    ¬ ∀ (past : List (Step Unit)) (d : Dispatcher Unit) (steps : List (Instant × Operation Unit))
      (s : Store) (fs fs' : FileSystem) (processors : UInt64) (config : JobsConfig)
      (runners : Runners Unit) (now : Instant) (p c : Job)
      (later : List (Instant × Operation Unit)),
      Run Proper past d → DependencyGraph.Link d.deps.entries c.id p.id → c.id ∈ d.queued →
      d.registry.get? p.id = some p → p.finished = false → d.registry.get? c.id = some c →
      (∀ x ∈ steps, x.2.Reacts) →
      (d.cancelAll.execute steps).saveFinal d.snapshot s fs = (.ok (), fs') →
      Store.Survives (d.snapshot.map (d.cancelAll.execute steps).settle) →
      Resumable config runners now p → Resumable config runners now c →
      (∀ x ∈ later, x.2 = .dispatchReady ∨ x.2.Reacts) →
      let e := (((create processors config runners).loadState s fs').2.resume now).2.execute later
      c.id ∈ e.launches.map (·.attempt.id) →
        ∃ r, e.registry.get? p.id = some r ∧ r.finished = true ∧ r.error = none := by
  intro hwaits
  obtain ⟨fs, hsave⟩ := sampleChain_save
  have hdone := hwaits _ _ (failing 1 "first" Text.jobCancelled) _ _ _ 1
    { maxConcurrent := 2, maxRestarts := 1 } syncRunners sampleInstant (sampleJob "first")
    sampleLater [(sampleInstant, .dispatchReady)] sampleChain_run
    (by unfold DependencyGraph.Link; decide +kernel) (by decide +kernel) (by decide +kernel) rfl
    (by decide +kernel) (failing_reacts _ _ _) hsave
    (sampleChain_saved ▸ sampleChain_survives) sampleChain_resumable.1 sampleChain_resumable.2
    (by simp)
  have hfirst : (sampleResumed.registry.get? "first").map (·.finished) = some false := by
    decide +kernel
  have he := sampleNext_resumed hsave
  obtain ⟨r, hr, hf, -⟩ :=
    hdone (he ▸ (by decide +kernel : "second" ∈ sampleResumed.launches.map (·.attempt.id)))
  have hr : sampleResumed.registry.get? "first" = some r := he ▸ hr
  rw [hr, Option.map_some, hf] at hfirst
  cases hfirst

end JobEngine.Dispatcher
