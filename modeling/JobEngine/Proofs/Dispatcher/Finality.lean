import JobEngine.Proofs.Dispatcher.Events
import JobEngine.Proofs.Dispatcher.Restarts

namespace JobEngine.Dispatcher

variable {τ : Type} {d d' e : Dispatcher τ} {now : Instant} {j : Job} {id : String}
  {o : Operation τ} {ev : Event τ} {events : List (Event τ)} {past later : List (Step τ)}

def Operation.Removes : Operation τ → String → Prop
  | .clearIfFinished id', id => id' = id
  | .prune _, _ => True
  | _, _ => False

theorem Operation.removes_of_causes (h : o.Causes (.forgotten id)) : o.Removes id := by
  cases o with
  | clearIfFinished id' => exact Eq.symm h
  | prune age => trivial
  | load | enqueue | enqueueAfter | dispatchReady | report | taskOver | handleStop | restart
  | resume | delayNext => cases h

theorem Effect.isSome_get? (h : Effect now d ev d') (hs : (d.registry.get? id).isSome = true)
    (hf : ev ≠ .forgotten id) : (d'.registry.get? id).isSome = true := by
  by_cases hj : ∃ j, ev.record? = some j ∧ id = j.id
  · obtain ⟨j, hj, rfl⟩ := hj
    rw [h.registry_insert hj, Registry.get?_insert_self]
    rfl
  · rw [h.get?_of_ne hf fun j hr he ↦ hj ⟨j, hr, he⟩]
    exact hs

theorem WellFormed.isSome_get?_perform (hw : d.WellFormed) (now : Instant)
    (ho : ∀ s fs, o ≠ .load s fs) (hs : (d.registry.get? id).isSome = true)
    (hr : ¬ o.Removes id) : ((d.perform now o).registry.get? id).isSome = true := by
  obtain ⟨events, ht, hc, -⟩ := hw.unfolds now ho
  apply ht.keeps (motive := fun e ↦ (e.registry.get? id).isSome = true)
  · intro e ev hev e' hs heff
    apply heff.isSome_get? hs
    rintro rfl
    exact hr (Operation.removes_of_causes (hc _ hev))
  · exact hs

theorem Run.not_load (h : Run Proper past d) (ho : Proper past d o) (hu : Used past d id)
    (s : Store) (fs : FileSystem) : o ≠ .load s fs := by
  rintro rfl
  obtain ⟨rfl, -⟩ := ho
  obtain ⟨processors, config, runners, rfl⟩ := h.eq_create
  rcases hu with hk | ⟨s, hs, -⟩
  · exact not_knows_create processors config runners id hk
  · cases hs

theorem used_of_registered (hj : d.registry.get? id = some j) : Used past d id :=
  .inl (.inl (by rw [Registry.contains, hj]; rfl))

theorem Accounted.detached_of_registered (h : d.Accounted []) (hj : d.registry.get? id = some j) :
    d.detached.get? id = none := by
  refine Option.not_isSome_iff_eq_none.1 fun hs ↦ ?_
  rw [h.detached id hs] at hj
  cases hj

theorem WellFormed.restart_finished (hw : d.WellFormed) (hj : d.registry.get? id = some j)
    (hf : j.finished = true) {k : Job} (hr : Step.restarts ⟨d, now, .restart k⟩ id = true) :
    j.error.isSome = true ∧ (d.restart now k).2.registry.get? id = some (j.again now) := by
  obtain ⟨hid, hok⟩ := Bool.and_eq_true_iff.1 hr
  obtain rfl : k.id = id := by simpa using hid
  rcases resubmission_cases hw now k with ⟨⟨c, he⟩, -⟩ | ⟨p, -, -, hid, -, heff⟩
  · rw [he] at hok
    cases hok
  · obtain ⟨-, k', hk, hallow, -, hp⟩ := heff.guard
    have hid' : k'.id = k.id := by rwa [hp] at hid
    rw [hid', hj, Option.getD_some] at hk
    subst hk
    refine ⟨?_, ?_⟩
    · exact Option.isSome_iff_ne_none.2 fun hn ↦ (allowsRestart_eq_ok_iff.1 hallow).1 ⟨hf, hn⟩
    · rw [heff.registry_insert rfl, ← hid, Registry.get?_insert_self, hp]

theorem Run.finished_step (h : Run Proper past d) (ho : Proper past d o)
    (hj : d.registry.get? id = some j) (hf : j.finished = true) (now : Instant) :
    (d.perform now o).registry.get? id = some j ∨
      (Step.restarts ⟨d, now, o⟩ id = true ∧ j.error.isSome = true ∧
        (d.perform now o).registry.get? id = some (j.again now)) ∨
      (o.Removes id ∧ (d.perform now o).registry.get? id = none) := by
  have hw := h.wellFormed
  have ha := h.accounted
  have hu : Used past d id := used_of_registered hj
  have hload := h.not_load ho hu
  have hidle : d.handles.lookup id = none := by
    refine Option.not_isSome_iff_eq_none.1 fun hs ↦ not_unfinished hj hf ?_
    rwa [ha.unfinished_iff, ← ha.handle_iff]
  cases hr : Step.restarts ⟨d, now, o⟩ id with
  | true =>
    right; left
    cases o with
    | restart k => exact ⟨rfl, hw.restart_finished hj hf hr⟩
    | load | enqueue | enqueueAfter | dispatchReady | report | taskOver | handleStop | resume
    | clearIfFinished | prune | delayNext => cases hr
  | false =>
    have hengage := hu.not_engages ho hload (ha.detached_of_registered hj) hr
    rcases (ha.spares hw now o hengage).record hidle with he | hn
    · exact .inl (he.trans hj)
    · refine .inr (.inr ⟨?_, hn⟩)
      by_contra hr
      have hs := hw.isSome_get?_perform now hload (by rw [hj]; rfl) hr
      rw [hn] at hs
      cases hs

/-- A record that was removed does not come back by itself. -/
theorem Run.gone_step (h : Run Proper past d) (ho : Proper past d o) (hu : Used past d id)
    (hn : d.registry.get? id = none) (hd : d.detached.get? id = none)
    (hr : Step.restarts ⟨d, now, o⟩ id = false) :
    (d.perform now o).registry.get? id = none := by
  have hengage := hu.not_engages ho (h.not_load ho hu) hd hr
  have hidle := h.accounted.lookup_eq_none hn
  rcases (h.accounted.spares h.wellFormed now o hengage).record hidle with he | hn'
  · exact he.trans hn
  · exact hn'

theorem Run.finished_later (h : Run Proper (later ++ past) e) (hd : atStart later e = d)
    (hj : d.registry.get? id = some j) (hf : j.finished = true)
    (hr : ∀ s ∈ later, s.restarts id = false) :
    (e.registry.get? id = some j ∨
      e.registry.get? id = none ∧ ∃ s ∈ later, s.operation.Removes id) ∧
    e.detached.get? id = none ∧ Used (later ++ past) e id := by
  induction later generalizing e with
  | nil =>
    obtain rfl : e = d := hd
    exact ⟨.inl hj, h.accounted.detached_of_registered hj, used_of_registered hj⟩
  | cons s later ih =>
    cases h with
    | @step _ b now o hrun ho =>
      obtain ⟨hrec, hdet, hu⟩ := ih hrun hd fun s hs ↦ hr s (List.mem_cons_of_mem _ hs)
      have hr := hr _ List.mem_cons_self
      refine ⟨?_, ?_, hu.step now o⟩
      · rcases hrec with hrec | ⟨hn, s, hs, hrem⟩
        · rcases hrun.finished_step ho hrec hf now with he | ⟨ht, -⟩ | ⟨hrem, hn⟩
          · exact .inl he
          · rw [hr] at ht
            cases ht
          · exact .inr ⟨hn, _, List.mem_cons_self, hrem⟩
        · exact .inr ⟨hrun.gone_step ho hu hn hdet hr, s, List.mem_cons_of_mem _ hs, hrem⟩
      · refine Option.eq_none_iff_forall_ne_some.2 fun k hk ↦ ?_
        have hk := Undetaches.perform hrun.wellFormed now (hrun.not_load ho hu) id k hk
        rw [hdet] at hk
        cases hk

/-- A success cannot be restarted, so its record stays as long as the job is registered. -/
theorem Run.succeeded_later (h : Run Proper (later ++ past) e) (hd : atStart later e = d)
    (hj : d.registry.get? id = some j) (hf : j.finished = true) (hs : j.error = none)
    (hheld : ∀ s ∈ later, (s.before.registry.get? id).isSome = true) :
    e.registry.get? id = some j ∨ e.registry.get? id = none := by
  induction later generalizing e with
  | nil =>
    obtain rfl : e = d := hd
    exact .inl hj
  | cons s later ih =>
    cases h with
    | @step _ b now o hrun ho =>
      have hheld' := hheld _ List.mem_cons_self
      rcases ih hrun hd fun s hs ↦ hheld s (List.mem_cons_of_mem _ hs) with hrec | hn
      · rcases hrun.finished_step ho hrec hf now with he | ⟨-, hfail, -⟩ | ⟨-, hn⟩
        · exact .inl he
        · rw [hs] at hfail
          cases hfail
        · exact .inr hn
      · rw [hn] at hheld'
        cases hheld'

/-- No step changes the record of a finished job, but for a restart of a job that has failed, and
for its removal on request. -/
theorem finished_records_stay (h : Run Proper past d) (hj : d.registry.get? id = some j)
    (hf : j.finished = true) :
    (∀ now o, Proper past d o →
      (d.perform now o).registry.get? id = some j ∨
      (Step.restarts ⟨d, now, o⟩ id = true ∧ j.error.isSome = true ∧
        (d.perform now o).registry.get? id = some (j.again now)) ∨
      (o.Removes id ∧ (d.perform now o).registry.get? id = none)) ∧
    ∀ later e, Run Proper (later ++ past) e → atStart later e = d →
      ((∀ s ∈ later, s.restarts id = false) → e.registry.get? id = some j ∨
        e.registry.get? id = none ∧ ∃ s ∈ later, s.operation.Removes id) ∧
      (j.error = none → (∀ s ∈ later, (s.before.registry.get? id).isSome = true) →
        e.registry.get? id = some j ∨ e.registry.get? id = none) := by
  refine ⟨fun now o ho ↦ h.finished_step ho hj hf now, ?_⟩
  intro later e hlater hd
  exact ⟨fun hr ↦ (hlater.finished_later hd hj hf hr).1,
    fun hs hheld ↦ hlater.succeeded_later hd hj hf hs hheld⟩

theorem finished_records_stay_sample :
    sample.2.registry.get? "first" = some ((sampleJob "first").finish sampleInstant) ∧
    (sample.2.dispatchReady sampleInstant).registry.get? "first" =
      some ((sampleJob "first").finish sampleInstant) := by
  have hj : sample.2.registry.get? "first" = some ((sampleJob "first").finish sampleInstant) := by
    decide +kernel
  refine ⟨hj, ?_⟩
  rcases (finished_records_stay sample_run hj rfl).1 sampleInstant .dispatchReady trivial with
    he | ⟨hr, -⟩ | ⟨hr, -⟩
  · exact he
  · cases hr
  · cases hr

end JobEngine.Dispatcher
