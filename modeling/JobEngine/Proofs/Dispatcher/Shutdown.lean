import JobEngine.Proofs.Dispatcher.Frame
import JobEngine.Proofs.Dispatcher.WindDown
import JobEngine.Proofs.Store.Save

namespace JobEngine.Dispatcher

variable {τ : Type} {d e : Dispatcher τ} {j r t : Job} {id : String} {a : Attempt}
  {steps : List (Instant × Operation τ)} {past later earlier : List (Step τ)}
  {s : Store} {fs fs' : FileSystem}

theorem settle_cases (e : Dispatcher τ) (j : Job) :
    (∃ t, e.registry.get? j.id = some t ∧ t.finished = true ∧ interrupted t = false ∧
      e.settle j = t) ∨
    (∀ t, e.registry.get? j.id = some t → t.finished = true → interrupted t = true) ∧
      e.settle j = j := by
  unfold settle
  cases hr : e.registry.get? j.id with
  | none => exact .inr ⟨(fun t ht ↦ by cases ht), rfl⟩
  | some t =>
    by_cases ht : (t.finished && !interrupted t) = true
    · have ht' : t.finished = true ∧ interrupted t = false := by simpa using ht
      exact .inl ⟨t, rfl, ht'.1, ht'.2, if_pos ht⟩
    · refine .inr ⟨?_, if_neg ht⟩
      intro k hk hf
      cases hk
      simpa [hf] using ht

theorem settle_id (hw : e.WellFormed) (j : Job) : (e.settle j).id = j.id := by
  rcases settle_cases e j with ⟨t, ht, -, -, he⟩ | ⟨-, he⟩
  · rw [he, hw.registry.id_of_get? ht]
  · rw [he]

theorem interrupted_iff : interrupted t = true ↔
    t.error = some Text.jobCancelled ∨ t.error = some Text.noCompletionReported := by
  simp [interrupted]

/-- An attempt ends for reasons of its own. -/
def EndsWith (a : Attempt) (steps : List (Instant × Operation τ)) (t : Job) : Prop :=
  ending? a steps = some t ∧ t.error ≠ some Text.jobCancelled ∧
    t.error ≠ some Text.noCompletionReported

theorem WellFormed.cancelAll (h : d.WellFormed) : d.cancelAll.WellFormed := { h with }

theorem WellFormed.settle_of_not_running (hw : d.WellFormed) (hr : ∀ x ∈ steps, x.2.Reacts)
    (hj : d.known? j.id = some j) (hi : j.id ∉ d.runningIds) :
    (d.cancelAll.execute steps).settle j = j := by
  have hrec : (d.cancelAll.execute steps).registry.get? j.id = d.registry.get? j.id :=
    hw.cancelAll.execute_of_not_running hr hi
  rcases settle_cases (d.cancelAll.execute steps) j with ⟨t, ht, -, -, he⟩ | ⟨-, he⟩
  · rw [hrec] at ht
    rw [known?, ht, Option.some_or, Option.some.injEq] at hj
    rw [he, hj]
  · exact he

namespace Accounted

theorem settle_of_running (h : d.Accounted []) (hw : d.WellFormed)
    (hr : ∀ x ∈ steps, x.2.Reacts) (ha : a ∈ d.attempts) (hj : j.id = a.id) :
    (∀ t, EndsWith a steps t → (d.cancelAll.execute steps).settle j = t ∧ t.finished = true) ∧
      ((∀ t, ¬ EndsWith a steps t) → (d.cancelAll.execute steps).settle j = j) := by
  have hc : d.cancelAll.Accounted [] := { h with }
  have hrun := hc.execute_running hw.cancelAll ha hr
  rw [← hj] at hrun
  -- how the attempt ends decides what the registry has, and `settle` looks at nothing else
  rcases settle_cases (d.cancelAll.execute steps) j with ⟨t, ht, hf, hi, he⟩ | ⟨hi, he⟩
  · rcases hrun with ⟨t', hend, hf', ht'⟩ | ⟨-, k, hk, hf'⟩
    · rw [ht, Option.some.injEq] at ht'
      subst ht'
      have hown : EndsWith a steps t := by
        have hne := mt (interrupted_iff (t := t)).2 (by simp [hi])
        exact ⟨hend, fun h ↦ hne (.inl h), fun h ↦ hne (.inr h)⟩
      refine ⟨fun t' ht' ↦ ?_, fun hn ↦ absurd hown (hn t)⟩
      have hte : t = t' := Option.some.inj (hend.symm.trans ht'.1)
      exact hte ▸ ⟨he, hf⟩
    · rw [ht, Option.some.injEq] at hk
      rw [← hk, hf] at hf'
      cases hf'
  · refine ⟨fun t ht ↦ ?_, fun _ ↦ he⟩
    rcases hrun with ⟨t', hend, hf', ht'⟩ | ⟨hend, -⟩
    · obtain rfl : t = t' := Option.some.inj (ht.1.symm.trans hend)
      rcases interrupted_iff.1 (hi t ht' hf') with hn | hn
      · exact absurd hn ht.2.1
      · exact absurd hn ht.2.2
    · rw [ht.1] at hend
      cases hend

theorem known_of_active (h : d.Accounted []) (hi : id ∈ d.active) :
    ∃ j, d.known? id = some j ∧ d.registry.get? id = some j ∧ j.finished = false := by
  obtain ⟨j, hj, hf⟩ := (h.unfinished_iff id).2 (List.mem_append_left _ hi)
  exact ⟨j, by rw [known?, hj, Option.some_or], hj, hf⟩

theorem knows_of_active (h : d.Accounted []) (hi : id ∈ d.active) : d.Knows id := by
  obtain ⟨j, -, hj, -⟩ := h.known_of_active hi
  exact .inl (by rw [Registry.contains, hj]; rfl)

theorem known_of_detached (h : d.Accounted []) (hj : d.detached.get? id = some j) :
    d.known? id = some j ∧ d.registry.get? id = none := by
  have hr := h.detached id (by rw [hj]; rfl)
  exact ⟨by rw [known?, hr, Option.none_or, hj], hr⟩

theorem not_running_of_queued (h : d.Accounted []) (hi : id ∈ d.queued) : id ∉ d.runningIds := by
  have hn := h.nodup
  rw [List.append_nil, active, List.nodup_append] at hn
  exact fun hr ↦ hn.2.2 id hi id hr rfl

end Accounted

/-- What shutdown writes of a job: its record if it has finished, is queued or detached, and if it
runs, the record that it ends with, or the one it had before unless it ends for reasons of its
own. -/
structure SavedAs (d : Dispatcher τ) (steps : List (Instant × Operation τ)) (r : Job) : Prop where
  finished : ∀ j, d.registry.get? r.id = some j → j.finished = true → r = j
  queued : r.id ∈ d.queued → d.registry.get? r.id = some r ∧ r.finished = false
  detached : ∀ j, d.detached.get? r.id = some j → r = j ∧ r.finished = false
  ended : ∀ a ∈ d.attempts, a.id = r.id → ∀ t, EndsWith a steps t → r = t ∧ r.finished = true
  stopped : ∀ a ∈ d.attempts, a.id = r.id → (∀ t, ¬ EndsWith a steps t) →
    d.registry.get? r.id = some r ∧ r.finished = false
  finished_iff : r.finished = true ↔ (∃ j, d.registry.get? r.id = some j ∧ j.finished = true) ∨
    ∃ a ∈ d.attempts, a.id = r.id ∧ ∃ t, EndsWith a steps t

theorem eq_of_registered (hj : d.known? id = some j) (hr : d.registry.get? id = some r) :
    j = r := by
  rw [known?, hr, Option.some_or, Option.some.injEq] at hj
  exact hj.symm

theorem Run.savedAs_of_not_running (h : Run Proper past d) (hj : d.known? j.id = some j)
    (hi : j.id ∉ d.runningIds) : d.SavedAs steps j where
  finished k hk _ := eq_of_registered hj hk
  queued hq := by
    obtain ⟨k, hk, hr, hf⟩ := h.accounted.known_of_active (List.mem_append_left _ hq)
    obtain rfl := eq_of_registered hj hr
    exact ⟨hr, hf⟩
  detached k hd := by
    have hk := (h.accounted.known_of_detached hd).1
    rw [hj, Option.some.injEq] at hk
    rw [← hk] at hd
    exact ⟨hk, h.detached_unfinished hd⟩
  ended a ha he := absurd (he ▸ List.mem_map_of_mem ha) hi
  stopped a ha he := absurd (he ▸ List.mem_map_of_mem ha) hi
  finished_iff := by
    constructor
    · intro hf
      rcases known?_eq_some_iff.1 hj with hr | ⟨-, hd⟩
      · exact .inl ⟨j, hr, hf⟩
      · rw [h.detached_unfinished hd] at hf
        cases hf
    · rintro (⟨k, hk, hf⟩ | ⟨a, ha, he, -⟩)
      · rw [eq_of_registered hj hk, hf]
      · exact absurd (he ▸ List.mem_map_of_mem ha) hi

theorem Accounted.savedAs_of_running (h : d.Accounted []) (hw : d.WellFormed)
    (hr : ∀ x ∈ steps, x.2.Reacts) (hi : j.id ∈ d.runningIds)
    (hj : d.registry.get? j.id = some j) (hf : j.finished = false) (hid : r.id = j.id)
    (hset : (d.cancelAll.execute steps).settle j = r) : d.SavedAs steps r := by
  have hnot (k : Job) (hk : d.registry.get? r.id = some k) : k.finished = false := by
    rw [hid, hj, Option.some.injEq] at hk
    rw [← hk, hf]
  have hrun (a : Attempt) (ha : a ∈ d.attempts) (he : a.id = r.id) :=
    h.settle_of_running hw hr ha (hid.symm.trans he.symm)
  have hstopped (a : Attempt) (ha : a ∈ d.attempts) (he : a.id = r.id)
      (hn : ∀ t, ¬ EndsWith a steps t) : r = j := hset.symm.trans ((hrun a ha he).2 hn)
  have hended (a : Attempt) (ha : a ∈ d.attempts) (he : a.id = r.id) (t : Job)
      (ht : EndsWith a steps t) : r = t ∧ r.finished = true := by
    obtain ⟨hs, hf⟩ := (hrun a ha he).1 t ht
    obtain rfl := hset.symm.trans hs
    exact ⟨rfl, hf⟩
  refine ⟨fun k hk hkf ↦ ?_, fun hq ↦ ?_, fun k hd ↦ ?_, hended, fun a ha he hn ↦ ?_, ?_, ?_⟩
  · rw [hnot k hk] at hkf
    cases hkf
  · exact absurd hi (h.not_running_of_queued (hid ▸ hq))
  · rw [hid] at hd
    rw [(h.known_of_detached hd).2] at hj
    cases hj
  · obtain rfl := hstopped a ha he hn
    exact ⟨hj, hf⟩
  · intro hfin
    obtain ⟨a, ha, he⟩ := List.mem_map.1 hi
    refine .inr ⟨a, ha, he.trans hid.symm, ?_⟩
    by_contra hn
    rw [hstopped a ha (he.trans hid.symm) fun t ht ↦ hn ⟨t, ht⟩, hf] at hfin
    cases hfin
  · rintro (⟨k, hk, hkf⟩ | ⟨a, ha, he, t, ht⟩)
    · rw [hnot k hk] at hkf
      cases hkf
    · exact (hended a ha he t ht).2

theorem Run.settle_savedAs (h : Run Proper past d) (hr : ∀ x ∈ steps, x.2.Reacts)
    (hj : j ∈ d.snapshot) : d.SavedAs steps ((d.cancelAll.execute steps).settle j) := by
  have ha := h.accounted
  have hw := h.wellFormed
  have hk := hw.mem_snapshot.1 hj
  by_cases hi : j.id ∈ d.runningIds
  · obtain ⟨k, -, hreg, hf⟩ := ha.known_of_active (List.mem_append_right _ hi)
    obtain rfl := eq_of_registered hk hreg
    exact ha.savedAs_of_running hw hr hi hreg hf (settle_id (hw.cancelAll.execute steps).1 j) rfl
  · rw [hw.settle_of_not_running hr hk hi]
    exact h.savedAs_of_not_running hk hi

theorem WellFormed.saveFinal_holds (hw : d.WellFormed)
    (hs : (d.cancelAll.execute steps).saveFinal d.snapshot s fs = (.ok (), fs')) :
    s.Holds fs' (d.snapshot.map (d.cancelAll.execute steps).settle) ∧
      ∀ id, ((d.snapshot.map (d.cancelAll.execute steps).settle).map (·.id)).count id =
        if d.Knows id then 1 else 0 :=
  ⟨Store.holds_of_save hs,
    hw.count_ids fun j _ ↦ settle_id (hw.cancelAll.execute steps).1 j⟩

def failing (ticket : Nat) (id error : String) : List (Instant × Operation Unit) :=
  [(sampleInstant, .report ticket ((sampleJob id).fail sampleInstant error))]

theorem failing_reacts (ticket : Nat) (id error : String) :
    ∀ x ∈ failing ticket id error, x.2.Reacts := by
  intro x hx
  obtain rfl := List.mem_singleton.1 hx
  trivial

theorem Accounted.handleStop_of_queued (h : d.Accounted []) (hw : d.WellFormed) (now : Instant)
    (hi : id ∈ d.queued) : (d.handleStop now id).handles.lookup id = none ∧
      (d.handleStop now id).detached.get? id = none := by
  have hm : id ∈ d.active ++ [] := List.mem_append_left _ (List.mem_append_left _ hi)
  rcases handleStop_cases d now id with ⟨hn, -⟩ | ⟨n, -, ⟨hr, -⟩ | ⟨p, queue, hr, he⟩⟩
  · rw [← h.handle_iff, hn] at hm
    cases hm
  · obtain ⟨p, hp, hid⟩ := List.mem_map.1 hi
    rw [hw.queue.remove_eq_none_iff] at hr
    simpa [hid] using hr p hp
  · obtain ⟨-, hp, -⟩ := hw.queue.remove_eq_some hr
    obtain rfl : p.job.id = id := by simpa using hp
    rw [he]
    refine ⟨?_, h.detached_eq_none hm⟩
    exact (Lookup.lookup_filter_ne _ _ d.handles).trans (if_pos rfl)

/-- What becomes of a job that was told to stop and has ended by the time shutdown writes the state
file. If it was queued, or had ended when shutdown told everybody to stop, it is saved as it ended.
So it is if it ends later, unless it ends the way that jobs end which shutdown interrupts: then it
is saved unfinished, like these. -/
theorem stopped_job_saved {b : Dispatcher τ} {at' : Instant}
    (h : Run Proper (later ++ ⟨b, at', .handleStop id⟩ :: earlier) d)
    (hl : ∀ s ∈ later, s.restarts id = false) (hr : ∀ x ∈ steps, x.2.Reacts)
    (ht : (d.cancelAll.execute steps).registry.get? id = some t) (hf : t.finished = true)
    (hs : (d.cancelAll.execute steps).saveFinal d.snapshot s fs = (.ok (), fs')) :
    ∃ records, s.Holds fs' records ∧ (records.map (·.id)).count id = 1 ∧
      ∀ r ∈ records, r.id = id →
        (id ∈ b.queued → r = t) ∧ (id ∉ d.runningIds → r = t) ∧
        (t.error ≠ some Text.jobCancelled → t.error ≠ some Text.noCompletionReported → r = t) ∧
        (id ∈ d.runningIds →
          t.error = some Text.jobCancelled ∨ t.error = some Text.noCompletionReported →
          d.registry.get? id = some r ∧ r.finished = false) := by
  have ha := h.accounted
  have hw := h.wellFormed
  have hrec (hi : id ∉ d.runningIds) : d.registry.get? id = some t :=
    (hw.cancelAll.execute_of_not_running hr hi).symm.trans ht
  have hknows : d.Knows id := by
    by_cases hi : id ∈ d.runningIds
    · exact ha.knows_of_active (List.mem_append_right _ hi)
    · exact .inl (by rw [Registry.contains, hrec hi]; rfl)
  obtain ⟨hheld, hcount⟩ := hw.saveFinal_holds hs
  refine ⟨_, hheld, (hcount id).trans (if_pos hknows), ?_⟩
  intro r hm hid
  obtain ⟨j, hj, rfl⟩ := List.mem_map.1 hm
  have hk := hw.mem_snapshot.1 hj
  obtain rfl : j.id = id := (settle_id (hw.cancelAll.execute steps).1 j).symm.trans hid
  have hidle (hi : j.id ∉ d.runningIds) : (d.cancelAll.execute steps).settle j = t := by
    rw [hw.settle_of_not_running hr hk hi, eq_of_registered hk (hrec hi)]
  refine ⟨fun hq ↦ hidle fun hi ↦ ?_, hidle, fun hne hne' ↦ ?_, fun hi hin ↦ ?_⟩
  · have hb : Run Proper earlier b := h.before
    have hstop := hb.accounted.handleStop_of_queued hb.wellFormed at' hq
    have hused : Used earlier b j.id :=
      .inl (hb.accounted.knows_of_active (List.mem_append_left _ hq))
    have hnone := (h.stays_idle hused hstop hl).1
    have hsome := (ha.handle_iff j.id).2 (List.mem_append_left _ (List.mem_append_right _ hi))
    rw [hnone] at hsome
    cases hsome
  · rcases settle_cases (d.cancelAll.execute steps) j with ⟨k, hkk, -, -, he⟩ | ⟨hin, -⟩
    · rw [he, ← Option.some.injEq, ← hkk, ht]
    · rcases interrupted_iff.1 (hin t ht hf) with he | he
      · exact absurd he hne
      · exact absurd he hne'
  · obtain ⟨k, -, hreg, hkf⟩ := ha.known_of_active (List.mem_append_right _ hi)
    obtain rfl := eq_of_registered hk hreg
    rcases settle_cases (d.cancelAll.execute steps) j with ⟨k, hkk, -, hn, -⟩ | ⟨-, he⟩
    · rw [ht, Option.some.injEq] at hkk
      rw [← hkk, interrupted_iff.2 hin] at hn
      cases hn
    · rw [he]
      exact ⟨hreg, hkf⟩

def sampleStopped : List (Step Unit) × Dispatcher Unit :=
  replay sampleInstant [] (create 1 {} {})
    [.enqueue () (sampleJob "first"), .dispatchReady, .handleStop "first"]

theorem sampleStopped_run : Run Proper sampleStopped.1 sampleStopped.2 := by
  have h : Run Proper [] (create 1 {} ({} : Runners Unit)) := .start 1 {} {}
  have h := h.step sampleInstant (.enqueue () (sampleJob "first")) (by decide +kernel)
  have h := h.step sampleInstant .dispatchReady trivial
  exact h.step sampleInstant (.handleStop "first") trivial

theorem stopped_job_saved_sample :
    let d := sampleStopped.2
    let fs := ((d.cancelAll.execute (failing 1 "first" "disk full")).saveFinal d.snapshot
      ⟨"jobs.json"⟩ {}).2
    ∃ records, Store.Holds ⟨"jobs.json"⟩ fs records ∧ (records.map (·.id)).count "first" = 1 ∧
      ∀ r ∈ records, r.id = "first" →
        r = (sampleJob "first").fail sampleInstant "disk full" := by
  intro d fs
  have hrun : Run Proper ([] ++ sampleStopped.1) d := sampleStopped_run
  have hsave : (d.cancelAll.execute (failing 1 "first" "disk full")).saveFinal d.snapshot
      ⟨"jobs.json"⟩ {} = (.ok (), fs) := Prod.ext (Store.save_first _) rfl
  have hend : (d.cancelAll.execute (failing 1 "first" "disk full")).registry.get? "first" =
      some ((sampleJob "first").fail sampleInstant "disk full") := by decide +kernel
  obtain ⟨records, hheld, hcount, hall⟩ :=
    stopped_job_saved hrun (by decide) (failing_reacts _ _ _) hend rfl hsave
  exact ⟨records, hheld, hcount, fun r hr hid ↦ (hall r hr hid).2.2.1 (by decide) (by decide)⟩

/-- If it reacts as it was told to, after shutdown has told everybody to stop, it is saved
unfinished, and the next start resumes it. -/
theorem exists_stopped_unfinished : ∃ (earlier : List (Step Unit)) (b d : Dispatcher Unit)
    (steps : List (Instant × Operation Unit)) (fs : FileSystem) (t r : Job),
    Run Proper (⟨b, sampleInstant, .handleStop "first"⟩ :: earlier) d ∧ "first" ∈ b.active ∧
      (∀ x ∈ steps, x.2.Reacts) ∧
      (d.cancelAll.execute steps).registry.get? "first" = some t ∧ t.finished = true ∧
      (d.cancelAll.execute steps).saveFinal d.snapshot ⟨"jobs.json"⟩ {} = (.ok (), fs) ∧
      Store.loadOrEmpty ⟨"jobs.json"⟩ fs = [r] ∧ r.id = "first" ∧ r.finished = false := by
  have hsaved : sampleStopped.2.snapshot.map
      (sampleStopped.2.cancelAll.execute (failing 1 "first" Text.jobCancelled)).settle =
        [sampleJob "first"] := by decide +kernel
  obtain ⟨fs, hsave⟩ : ∃ fs, Store.save ⟨"jobs.json"⟩ [sampleJob "first"] {} = (.ok (), fs) :=
    ⟨_, Prod.ext (Store.save_first _) rfl⟩
  have hheld := Store.holds_of_save hsave
  refine ⟨_, _, sampleStopped.2, failing 1 "first" Text.jobCancelled, fs,
    (sampleJob "first").fail sampleInstant Text.jobCancelled, sampleJob "first", sampleStopped_run,
    by decide +kernel, failing_reacts _ _ _, by decide +kernel, rfl, ?_, ?_, rfl, rfl⟩
  · rw [saveFinal, hsaved]
    exact hsave
  · exact hheld.loadOrEmpty (Store.survives_of_entriesOf? (by decide +kernel))

end JobEngine.Dispatcher
