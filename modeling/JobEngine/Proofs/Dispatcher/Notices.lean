import JobEngine.Proofs.Dispatcher.Events
import JobEngine.Proofs.Store.Save

namespace JobEngine.Dispatcher

variable {τ : Type} {d d' : Dispatcher τ} {now : Instant} {j : Job} {id : String} {ev : Event τ}
  {events : List (Event τ)} {past : List (Step τ)} {o : Operation τ}

def Event.HandedIn (now : Instant) (ev : Event τ) : Prop :=
  ∃ p : Pending τ, p.job.finished = true ∧ (ev = .submitted p ∨
    ∃ handle, ev = .launched ⟨⟨p.ticket, p.job.id, handle, p.job.touch now⟩, p.task⟩)

/-- A finished record is that of a job that ends, of a detached job that is refused, or one that the
caller had finished already. -/
theorem Effect.finished_record (h : Effect now d ev d') (hj : ev.record? = some j)
    (hf : j.finished = true) :
    (∃ ticket, ev = .settled ticket j) ∨
    (ev = .refused j ∧ ∃ k error, d.detached.get? k.id = some k ∧
      j = k.fail now ("not resumed: " ++ error)) ∨
    ev.HandedIn now := by
  have hguard := h.guard
  cases ev with
  | quiet | forgotten => cases hj
  | settled ticket k =>
    cases hj
    exact .inl ⟨ticket, rfl⟩
  | refused k =>
    cases hj
    obtain ⟨k, hk, error, he⟩ := hguard
    exact .inr (.inl ⟨rfl, k, error, hk, he⟩)
  | submitted p =>
    cases hj
    exact .inr (.inr ⟨p, hf, .inl rfl⟩)
  | restarted p =>
    obtain ⟨-, k, -, -, -, hp⟩ := hguard
    cases hj
    rw [hp] at hf
    cases hf
  | launched l =>
    obtain ⟨p, -, -, handle, rfl⟩ := hguard
    cases hj
    exact .inr (.inr ⟨p, hf, .inr ⟨handle, rfl⟩⟩)
  | updated k =>
    cases hj
    rw [hguard.2] at hf
    cases hf

theorem Effect.get?_cases (h : Effect now d ev d') (hj : d'.registry.get? id = some j) :
    d.registry.get? id = some j ∨ ev.record? = some j := by
  cases hr : ev.record? with
  | some k =>
    rw [h.registry_insert hr, Registry.get?_insert] at hj
    split at hj
    · exact .inr (congrArg some (Option.some.inj hj))
    · exact .inl hj
  | none =>
    rw [h.registry] at hj
    cases ev with
    | quiet => exact .inl hj
    | forgotten id' =>
      have hj : (d.registry.erase id').get? id = some j := hj
      rw [Registry.get?_erase] at hj
      split at hj
      · cases hj
      · exact .inl hj
    | submitted | restarted | launched | updated | settled | refused => cases hr

namespace Trace

theorem get?_cases (h : Trace now d events d') (hj : d'.registry.get? id = some j) :
    d.registry.get? id = some j ∨ ∃ ev ∈ events, ev.record? = some j := by
  induction h with
  | nil d => exact .inl hj
  | @cons d d₁ d' ev events heff _ ih =>
    rcases ih hj with hj | ⟨ev', hmem, hr⟩
    · rcases heff.get?_cases hj with hj | hr
      · exact .inl hj
      · exact .inr ⟨ev, List.mem_cons_self, hr⟩
    · exact .inr ⟨ev', List.mem_cons_of_mem _ hmem, hr⟩

theorem finished_records (h : Trace now d events d') (hev : ev ∈ events)
    (hj : ev.record? = some j) (hf : j.finished = true) :
    (∃ ticket, ev = .settled ticket j) ∨
    (ev = .refused j ∧ ∃ k error, d.detached.get? k.id = some k ∧
      j = k.fail now ("not resumed: " ++ error)) ∨
    ev.HandedIn now := by
  induction h with
  | nil d => cases hev
  | @cons d d₁ d' ev' events heff _ ih =>
    rcases List.mem_cons.1 hev with rfl | hev
    · exact heff.finished_record hj hf
    · refine (ih hev).imp_right (Or.imp_left ?_)
      rintro ⟨hev, k, error, hk, he⟩
      exact ⟨hev, k, error, heff.detached _ k hk, he⟩

end Trace

theorem WellFormed.resume_notices (h : d.WellFormed) (now : Instant) :
    (d.resume now).2.notices = d.notices := by
  obtain ⟨events, ht, hc, -⟩ := h.unfolds now (o := .resume) nofun
  have hnil : events.filterMap Event.ending? = [] := by
    rw [List.filterMap_eq_nil_iff]
    intro ev hev
    have hc := hc ev hev
    cases ev with
    | settled => cases hc
    | quiet | submitted | restarted | launched | updated | refused | forgotten => rfl
  have hn := ht.notices
  rwa [hnil, List.map_nil, List.append_nil] at hn

/-- Whatever record of a finished job an operation puts into the registry, it gives notice of this
record, once, unless the caller had finished the job already, or a detached job cannot be resumed.
Resuming gives no notices at all. -/
theorem finished_records_noticed {ok : List (Step τ) → Dispatcher τ → Operation τ → Prop}
    (h : Run ok past d) (now : Instant) (ho : ∀ s fs, o ≠ .load s fs) :
    ∃ events, Trace now d events (d.perform now o) ∧
      (∀ id j, (d.perform now o).registry.get? id = some j →
        d.registry.get? id = some j ∨ ∃ ev ∈ events, ev.record? = some j) ∧
      (d.perform now o).notices =
        d.notices ++ (events.filterMap Event.ending?).map (·.2) ∧
      (o = .resume → (d.perform now o).notices = d.notices) ∧
      ∀ ev ∈ events, ∀ j, ev.record? = some j → j.finished = true →
        (∃ ticket, ev = .settled ticket j) ∨
        (o = .resume ∧ ev = .refused j ∧ ∃ k error, d.detached.get? k.id = some k ∧
          j = k.fail now ("not resumed: " ++ error)) ∨
        ev.HandedIn now := by
  obtain ⟨events, ht, hc, -⟩ := h.wellFormed.unfolds now ho
  refine ⟨events, ht, fun id j hj ↦ ht.get?_cases hj, ht.notices, ?_, ?_⟩
  · rintro rfl
    exact h.wellFormed.resume_notices now
  · intro ev hev j hj hf
    refine (ht.finished_records hev hj hf).imp_right (Or.imp_left ?_)
    rintro ⟨rfl, hk⟩
    refine ⟨?_, rfl, hk⟩
    have hc := hc _ hev
    cases o with
    | resume => rfl
    | load | enqueue | enqueueAfter | dispatchReady | report | taskOver | handleStop | restart
    | clearIfFinished | prune | delayNext => cases hc

theorem finished_records_noticed_sample :
    (sample.2.handleStop sampleInstant "second").notices.map (·.id) = ["first", "second"] ∧
    ∃ events, Trace sampleInstant sample.2 events (sample.2.handleStop sampleInstant "second") ∧
      (sample.2.handleStop sampleInstant "second").notices =
        sample.2.notices ++ (events.filterMap Event.ending?).map (·.2) := by
  obtain ⟨events, ht, -, hn, -⟩ :=
    finished_records_noticed sample_run sampleInstant (o := .handleStop "second") nofun
  exact ⟨by decide +kernel, events, ht, hn⟩

/-- Not every record of a job that becomes finished has its notice: that of a detached job without a
runner has none. -/
theorem finished_unnoticed :
    ¬ ∀ (past : List (Step Unit)) (d : Dispatcher Unit), Run Proper past d →
      ∀ now o, Proper past d o → (∀ s fs, o ≠ .load s fs) →
        ∀ id j, (d.perform now o).registry.get? id = some j → j.finished = true →
          d.registry.get? id ≠ some j →
          ∃ js, (d.perform now o).notices = d.notices ++ js ∧ j ∈ js := by
  intro hall
  obtain ⟨fs, hsave⟩ : ∃ fs, Store.save ⟨"jobs.json"⟩ [sampleJob "first"] {} = (.ok (), fs) :=
    ⟨_, Prod.ext (Store.save_first _) rfl⟩
  have hload : Store.loadOrEmpty ⟨"jobs.json"⟩ fs = [sampleJob "first"] :=
    (Store.holds_of_save hsave).loadOrEmpty (Store.survives_of_entriesOf? (by decide +kernel))
  have h : Run Proper [] (create 1 { maxRestarts := 1 } ({} : Runners Unit)) := .start 1 _ _
  have h := h.step sampleInstant (.load ⟨"jobs.json"⟩ fs) ⟨rfl, by rw [hload]; decide⟩
  have hd : (create 1 { maxRestarts := 1 } ({} : Runners Unit)).perform sampleInstant
      (.load ⟨"jobs.json"⟩ fs) = (create 1 { maxRestarts := 1 } {}).takeUp [sampleJob "first"] :=
    congrArg _ hload
  rw [hd] at h
  have hrecord : (((create 1 { maxRestarts := 1 } ({} : Runners Unit)).takeUp
      [sampleJob "first"]).perform sampleInstant .resume).registry.get? "first" =
        some ((sampleJob "first").fail sampleInstant
          ("not resumed: " ++ (Error.notFound "job runner" JobKind.corpusSync.name).message)) := by
    have hl : ((create 1 { maxRestarts := 1 } ({} : Runners Unit)).takeUp
        [sampleJob "first"]).detached.listed = [sampleJob "first"] :=
      List.mergeSort_of_pairwise (List.pairwise_singleton _ _)
    rw [perform, resume, hl]
    decide +kernel
  obtain ⟨js, hjs, hj⟩ := hall _ _ h sampleInstant .resume trivial (by rintro s fs ⟨⟩) "first" _
    hrecord rfl (by decide +kernel)
  have hn := h.wellFormed.resume_notices sampleInstant
  rw [perform, hn, List.self_eq_append_right] at hjs
  rw [hjs] at hj
  cases hj

end JobEngine.Dispatcher
