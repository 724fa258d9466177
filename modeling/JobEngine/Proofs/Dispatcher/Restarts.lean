import JobEngine.Proofs.Dispatcher.Events
import JobEngine.Proofs.Dispatcher.Loop
import JobEngine.Proofs.Dispatcher.Slots
import JobEngine.Proofs.Task.Reports

namespace JobEngine.Dispatcher

variable {τ : Type} {d e : Dispatcher τ} {now : Instant} {j k : Job} {id : String} {m : UInt32}
  {o : Operation τ} {past recent earlier : List (Step τ)}
  {ok : List (Step τ) → Dispatcher τ → Operation τ → Prop}

/-- A report counts the restarts as the record before it does: the one that its attempt was launched
with, or reported last. -/
def KeepsCount (d : Dispatcher τ) : Operation τ → Prop
  | .report ticket j => ∀ a ∈ d.attempts, a.ticket = ticket → j.id = a.id →
    j.numRestarts = a.last.numRestarts
  | _ => True

/-- Submitted ids are new, the state file is read at the very beginning, and tasks leave the number
of restarts as it is. -/
def Faithful (past : List (Step τ)) (d : Dispatcher τ) (o : Operation τ) : Prop :=
  NewIds past d o ∧ KeepsCount d o

theorem Used.step (h : Used past d id) (now : Instant) (o : Operation τ) :
    Used (⟨d, now, o⟩ :: past) (d.perform now o) id := by
  right
  rcases h with hk | ⟨s, hs, hk⟩
  · exact ⟨_, List.mem_cons_self, hk⟩
  · exact ⟨s, List.mem_cons_of_mem _ hs, hk⟩

theorem mem_active_submitted (hv : d.queue.Valid) {task : τ}
    (hi : id ∈ (d.enqueue task j).active) :
    id ∈ d.active ∨ ((d.enqueue task j).registry.get? id).isSome = true := by
  obtain ⟨hr, -⟩ := enqueue_cases hv task j
  rcases (mem_active_enqueue hv).1 hi with rfl | hi
  · rw [hr, Registry.get?_insert_self]
    exact .inr rfl
  · exact .inl hi

theorem mem_active_enqueueAfter (hw : d.WellFormed) {task : τ} {parent : String}
    (hi : id ∈ (d.enqueueAfter now task j parent).2.active) :
    id ∈ d.active ∨
      ((d.enqueueAfter now task j parent).2.registry.get? id).isSome = true := by
  rcases enqueueAfter_cases hw.deps now task j parent with ⟨c, he⟩ | ⟨p, -, -, he⟩
  · rw [he] at hi
    exact .inl hi
  · rw [he] at hi ⊢
    exact mem_active_submitted hw.queue hi

theorem mem_active_restart (hw : d.WellFormed) (hi : id ∈ (d.restart now j).2.active) :
    id ∈ d.active ∨ ((d.restart now j).2.registry.get? id).isSome = true := by
  rcases restart_cases d now j with ⟨c, he⟩ | ⟨task, current, -, -, -, -, he⟩
  · rw [he] at hi
    exact .inl hi
  · rw [he] at hi ⊢
    exact mem_active_submitted (d := { d with detached := d.detached.erase current.id })
      hw.queue hi

theorem isSome_get?_restart (h : (d.registry.get? id).isSome = true) :
    ((d.restart now j).2.registry.get? id).isSome = true := by
  rcases restart_cases d now j with ⟨c, he⟩ | ⟨task, current, -, -, hl, -, he⟩
  · rw [he]
    exact h
  · have hl : d.handles.lookup (current.again now).id = none := hl
    rw [he]
    simp only [enqueue, handleFor, hl]
    exact isSome_get?_insert h _

theorem mem_active_resume (hw : d.WellFormed) (hi : id ∈ (d.resume now).2.active) :
    id ∈ d.active ∨ ((d.resume now).2.registry.get? id).isSome = true := by
  have hkeep : id ∈ (d.resume now).2.active →
      id ∈ d.active ∨ ((d.resume now).2.registry.get? id).isSome = true := by
    apply hw.resume_keeps
      (motive := fun e ↦ id ∈ e.active → id ∈ d.active ∨ (e.registry.get? id).isSome = true)
    · intro e j hw h hi
      rcases mem_active_restart hw hi with hi | hr
      · exact (h hi).imp_right isSome_get?_restart
      · exact .inr hr
    · intro e j error _ h _ hi
      exact (h hi).imp_right fun hr ↦ isSome_get?_insert hr _
    · exact .inl
  exact hkeep hi

def Operation.BringsIn : Operation τ → Prop
  | .load _ _ | .enqueue _ _ | .enqueueAfter _ _ _ | .restart _ | .resume => True
  | _ => False

theorem Tracked.derives (h : d.Tracked) (hw : d.WellFormed) (now : Instant)
    (hk : KeepsCount d o) (ho : ¬ o.BringsIn) : Derives d (d.perform now o) := by
  cases o with
  | load | enqueue | enqueueAfter | restart | resume => exact absurd trivial ho
  | dispatchReady => exact h.dispatchReady hw now
  | report ticket j => exact h.report hw ticket j hk
  | taskOver ticket panicked => exact h.taskOver hw now ticket panicked
  | handleStop id => exact h.handleStop hw now id
  | clearIfFinished id => exact .clearIfFinished d id
  | prune age => exact .prune d now age
  | delayNext => exact .delayNext hw

theorem tracked_takeUp (processors : UInt64) (config : JobsConfig) (runners : Runners τ)
    {jobs : List Job} (hn : (jobs.map (·.id)).Nodup) :
    ((create processors config runners).takeUp jobs).Tracked := by
  have hw := (wellFormed_create processors config runners).takeUp jobs
  have ha := (accounted_create processors config runners).takeUp jobs hn (fun _ _ ↦ rfl)
    fun _ _ ↦ rfl
  obtain ⟨registry, detached, he⟩ := takeUp_eq jobs (create processors config runners)
  have hidle (id : String) : id ∉ ((create processors config runners).takeUp jobs).active := by
    rw [he]
    exact List.not_mem_nil
  refine ⟨?_, fun id hi ↦ absurd hi (hidle id), ?_, ?_⟩
  · rw [he]
    exact .nil
  · exact fun id hs ↦ ⟨ha.detached id hs, hidle id⟩
  · exact fun id ↦ hw.exists_counts_of_idle (hidle id)

theorem Run.active_used (h : Run ok past d) : ∀ id ∈ d.active, Used past d id := by
  induction h with
  | start processors config runners => exact fun id hi ↦ by cases hi
  | @step past d now o hrun ho ih =>
    have hw := hrun.wellFormed
    have hgrown (hgrow : ∀ id ∈ (d.perform now o).active,
        id ∈ d.active ∨ ((d.perform now o).registry.get? id).isSome = true) :
        ∀ id ∈ (d.perform now o).active, Used (⟨d, now, o⟩ :: past) (d.perform now o) id := by
      intro id hi
      rcases hgrow id hi with hi | hr
      · exact (ih id hi).step now o
      · exact .inl (.inl hr)
    cases o with
    | load s fs =>
      refine hgrown fun id hi ↦ .inl ?_
      obtain ⟨registry, detached, he⟩ := takeUp_eq (s.loadOrEmpty fs) d
      change id ∈ (d.takeUp (s.loadOrEmpty fs)).active at hi
      rw [he] at hi
      exact hi
    | enqueue task j => exact hgrown fun _ hi ↦ mem_active_submitted hw.queue hi
    | enqueueAfter task j parent => exact hgrown fun _ hi ↦ mem_active_enqueueAfter hw hi
    | restart j => exact hgrown fun _ hi ↦ mem_active_restart hw hi
    | resume => exact hgrown fun _ hi ↦ mem_active_resume hw hi
    | dispatchReady | report | taskOver | handleStop | clearIfFinished | prune | delayNext =>
      exact hgrown fun _ hi ↦ .inl (hw.active_subset now (by rintro s fs ⟨⟩) rfl hi)

/-- An active job may have been forgotten, so that ids are new is not enough by itself. -/
theorem Run.idle_of_not_used (h : Run ok past d) (hj : ¬ Used past d id) :
    id ∉ d.active ∧ d.detached.get? id = none :=
  ⟨fun hi ↦ hj (h.active_used id hi), (get?_of_not_used hj).2.1⟩

theorem Run.tracked (h : Run Faithful past d) : d.Tracked := by
  induction h with
  | start processors config runners =>
    have hnil : (([] : List Job).map (·.id)).Nodup := .nil
    exact tracked_takeUp processors config runners hnil
  | @step past d now o hrun ho ht =>
    have hw := hrun.wellFormed
    cases o with
    | load s fs =>
      obtain ⟨rfl, hn⟩ := ho.1
      obtain ⟨processors, config, runners, rfl⟩ := hrun.eq_create
      exact tracked_takeUp processors config runners hn
    | enqueue task j =>
      obtain ⟨hi, hd⟩ := hrun.idle_of_not_used ho.1
      exact ht.enqueue hw hi hd task
    | enqueueAfter task j parent =>
      obtain ⟨hi, hd⟩ := hrun.idle_of_not_used ho.1
      exact ht.enqueueAfter hw hi hd now task parent
    | restart j => exact ht.restart hw now j
    | resume => exact ht.resume hw now
    | dispatchReady | report | taskOver | handleStop | clearIfFinished | prune | delayNext =>
      exact (ht.derives hw now ho.2 not_false).tracked ht

/-- A registered job is restarted from its registered record, whatever record the caller has. -/
theorem Tracked.count_restart (h : d.Tracked) (hw : d.WellFormed)
    (hk : d.registry.get? id = some k) (now : Instant) (j : Job) :
    Step.restarts ⟨d, now, .restart j⟩ id = true ∧ d.allowsRestart k = .ok () ∧
        (d.restart now j).2.Counts id (k.again now).numRestarts ∨
      Step.restarts ⟨d, now, .restart j⟩ id = false ∧
        (d.restart now j).2.Counts id k.numRestarts := by
  have hc := h.counts_registered hw hk
  obtain rfl := hw.registry.id_of_get? hk
  by_cases hid : j.id = k.id
  · rcases restart_cases d now j with ⟨c, he⟩ | ⟨task, current, hcur, hallow, hl, -, he⟩
    · refine .inr ⟨?_, ?_⟩
      · simp [Step.restarts, he, Except.isOk, Except.toBool]
      · rw [he]
        exact hc
    · obtain rfl : current = k := by
        rw [hcur, hid, hk]
        rfl
      refine .inl ⟨?_, hallow, ?_⟩
      · simp [Step.restarts, he, hid, Except.isOk, Except.toBool]
      · have hw' : { d with detached := d.detached.erase current.id }.WellFormed :=
          { hw with detached := hw.detached.erase _ }
        have hi : (current.again now).id ∉ d.active := h.not_mem_active hl
        rw [he]
        exact (hw'.counts_enqueue hi task).congr rfl rfl rfl
  · refine .inr ⟨?_, hc.restart hw hid now⟩
    simp [Step.restarts, hid]

theorem Run.count_step (h : Run Faithful past d) (ho : Faithful past d o)
    (hk : d.registry.get? id = some k) (now : Instant) :
    Step.restarts ⟨d, now, o⟩ id = true ∧ d.allowsRestart k = .ok () ∧
        (d.perform now o).Counts id (k.again now).numRestarts ∨
      Step.restarts ⟨d, now, o⟩ id = false ∧ (d.perform now o).Counts id k.numRestarts := by
  have hw := h.wellFormed
  have ht := h.tracked
  have hc := ht.counts_registered hw hk
  have hne {j : Job} (hj : ¬ Used past d j.id) : j.id ≠ id := by
    rintro rfl
    rw [(get?_of_not_used hj).1] at hk
    cases hk
  cases o with
  | load s fs =>
    obtain ⟨rfl, -⟩ := ho.1
    obtain ⟨processors, config, runners, rfl⟩ := h.eq_create
    cases hk
  | enqueue task j => exact .inr ⟨rfl, hc.enqueue hw.queue (hne ho.1) task⟩
  | enqueueAfter task j parent =>
    exact .inr ⟨rfl, hc.enqueueAfter hw (hne ho.1) now task parent⟩
  | restart j => exact ht.count_restart hw hk now j
  | resume =>
    -- registered jobs are not detached, so resuming passes this one by
    have hd : d.detached.get? id = none := by
      refine Option.not_isSome_iff_eq_none.1 fun hs ↦ ?_
      rw [(ht.detached id hs).1] at hk
      cases hk
    exact .inr ⟨rfl, hc.resume hw hd now⟩
  | dispatchReady | report | taskOver | handleStop | clearIfFinished | prune | delayNext =>
    exact .inr ⟨rfl, (ht.derives hw now ho.2 not_false).counts hc⟩

def atStart : List (Step τ) → Dispatcher τ → Dispatcher τ
  | [], d => d
  | s :: recent, _ => atStart recent s.before

theorem Run.count_eq {j₀ : Job} (h : Run Faithful (recent ++ earlier) d)
    (hheld : ∀ s ∈ recent, (s.before.registry.get? id).isSome = true)
    (hj₀ : (atStart recent d).registry.get? id = some j₀) (hj : d.registry.get? id = some j) :
    j.numRestarts.toNat = j₀.numRestarts.toNat + recent.countP (·.restarts id) ∧
      j.numRestarts.toNat ≤ max d.config.maxRestarts.toNat j₀.numRestarts.toNat := by
  induction recent generalizing d j with
  | nil =>
    obtain rfl : j₀ = j := Option.some.inj (hj₀.symm.trans hj)
    exact ⟨rfl, Nat.le_max_right _ _⟩
  | cons s recent ih =>
    have hw := h.wellFormed
    obtain rfl := hw.registry.id_of_get? hj
    have hmem : j ∈ d.copies := mem_copies.2 (.inl (hw.registry.mem_jobs_iff.2 hj))
    obtain ⟨k, hk⟩ := Option.isSome_iff_exists.1 (hheld s List.mem_cons_self)
    cases h with
    | @step _ e now o hrun ho =>
      have hheld : ∀ s ∈ recent, (s.before.registry.get? j.id).isSome = true :=
        fun s hs ↦ hheld s (List.mem_cons_of_mem _ hs)
      obtain ⟨hcount, hle⟩ := ih hrun hheld hj₀ hk
      rw [List.countP_cons, hrun.wellFormed.perform_config]
      rcases hrun.count_step ho hk now with ⟨hr, hallow, hc⟩ | ⟨hr, hc⟩
      · have hlt := (allowsRestart_eq_ok_iff.1 hallow).2
        have hcap := UInt32.lt_iff_toNat_lt.1 hlt
        rw [hc j hmem rfl, toNat_again hlt, if_pos hr]
        omega
      · rw [hc j hmem rfl, if_neg (Bool.not_eq_true _ ▸ hr)]
        omega

theorem Tracked.restart_refused (h : d.Tracked) (hw : d.WellFormed)
    (hj : d.registry.get? k.id = some j)
    (hr : d.config.maxRestarts ≤ j.numRestarts ∨ k.id ∈ d.active ∨
      j.finished = true ∧ j.error = none) (now : Instant) :
    ∃ c, d.restart now k = (.error c, d) := by
  rcases restart_cases d now k with he | ⟨task, current, hcur, hallow, hl, -, -⟩
  · exact he
  · obtain rfl : current = j := by
      rw [hcur, hj]
      rfl
    obtain ⟨hsuccess, hlt⟩ := allowsRestart_eq_ok_iff.1 hallow
    rcases hr with hcap | hi | hs
    · exact absurd hlt (UInt32.not_lt.2 hcap)
    · rw [← hw.registry.id_of_get? hj] at hi
      exact absurd hi (h.not_mem_active hl)
    · exact absurd hs hsuccess

/-- The registry counts the restarts of a job, whatever records the callers had. There are none
beyond the cap, beside an attempt under way or after a success, so the count stays below the cap
unless it began above it, and no increment overflows. Built-in tasks leave the count as it is. -/
theorem restarts_counted {j₀ : Job} (h : Run Faithful (recent ++ earlier) d)
    (hheld : ∀ s ∈ recent, (s.before.registry.get? id).isSome = true)
    (hj₀ : (atStart recent d).registry.get? id = some j₀) (hj : d.registry.get? id = some j) :
    j.numRestarts.toNat = j₀.numRestarts.toNat + recent.countP (·.restarts id) ∧
      j.numRestarts.toNat ≤ max d.config.maxRestarts.toNat j₀.numRestarts.toNat ∧
      (∀ k : Job, k.id = id →
        d.config.maxRestarts ≤ j.numRestarts ∨ id ∈ d.active ∨
          j.finished = true ∧ j.error = none →
        ∀ now, ∃ c, d.restart now k = (.error c, d)) ∧
      (∀ k now, d.allowsRestart k = .ok () →
        (k.again now).numRestarts.toNat = k.numRestarts.toNat + 1) ∧
      ∀ k task, Task.dummy k = .ok task → task.Reports (·.numRestarts = k.numRestarts) := by
  obtain ⟨hcount, hle⟩ := h.count_eq hheld hj₀ hj
  refine ⟨hcount, hle, ?_, ?_, ?_⟩
  · rintro k rfl hr now
    exact h.tracked.restart_refused h.wellFormed hj hr now
  · intro k now hallow
    exact toNat_again (allowsRestart_eq_ok_iff.1 hallow).2 now
  · intro k task ht
    exact Task.dummy_reports (lasting_numRestarts k.numRestarts) rfl ht

def failingJob : Job :=
  Job.create "retry" "corpus" sampleInstant (.dummy { fail := true } none)

def sampleRestarted : List (Step Task) × Dispatcher Task :=
  replay sampleInstant [] (create 1 { maxRestarts := 1 } .builtin)
    [.enqueue (Task.scripted failingJob []) failingJob, .dispatchReady,
      .report 1 (failingJob.fail sampleInstant Task.failedOnRequest), .restart failingJob]

theorem restarts_counted_sample :
    (∃ j, sampleRestarted.2.registry.get? "retry" = some j ∧ j.numRestarts.toNat = 1) ∧
      ∃ c, sampleRestarted.2.restart sampleInstant failingJob =
        (.error c, sampleRestarted.2) := by
  have h : Run Faithful [] (create 1 { maxRestarts := 1 } .builtin) := .start _ _ _
  have h := h.step sampleInstant (.enqueue (Task.scripted failingJob []) failingJob)
    ⟨by unfold NewIds; decide +kernel, trivial⟩
  have h := h.step sampleInstant .dispatchReady ⟨trivial, trivial⟩
  have h := h.step sampleInstant (.report 1 (failingJob.fail sampleInstant Task.failedOnRequest))
    ⟨trivial, by unfold KeepsCount; decide +kernel⟩
  have h := h.step sampleInstant (.restart failingJob) ⟨trivial, trivial⟩
  have hrun : Run Faithful (sampleRestarted.1.take 3 ++ sampleRestarted.1.drop 3)
      sampleRestarted.2 := h
  have hj : sampleRestarted.2.registry.get? "retry" = some (failingJob.again sampleInstant) := by
    decide +kernel
  have hj₀ : (atStart (sampleRestarted.1.take 3) sampleRestarted.2).registry.get? "retry" =
      some failingJob := by decide +kernel
  obtain ⟨hcount, -, hrefused, -⟩ := restarts_counted hrun (by decide +kernel) hj₀ hj
  have hone : (sampleRestarted.1.take 3).countP (·.restarts "retry") = 1 := by decide +kernel
  refine ⟨⟨_, hj, ?_⟩, ?_⟩
  · rw [hcount, hone]
    rfl
  · exact hrefused failingJob rfl (.inl (by decide)) sampleInstant

end JobEngine.Dispatcher
