import JobEngine.Proofs.Dispatcher.Handles

namespace JobEngine.Dispatcher

open DependencyGraph

variable {τ : Type} {d d' e : Dispatcher τ} {now : Instant} {b : Bool} {j : Job} {id : String}
  {o : Operation τ} {a p : Pending τ} {past later earlier : List (Step τ)}

def dependents (d : Dispatcher τ) : List String := d.deps.entries.map (·.1)

theorem mem_dependents : id ∈ d.dependents ↔ d.deps.hasDependencies id = true := by
  rw [hasDependencies, dependents]
  induction d.deps.entries with
  | nil => simp
  | cons x m ih =>
    rw [Lookup.lookup_cons, List.map_cons, List.mem_cons]
    split
    · next h => simp [h]
    · next h => rw [or_iff_right h, ih]

theorem readiness_of_independent (h : id ∉ d.dependents) : d.readiness id = .ready := by
  rw [mem_dependents, hasDependencies, Bool.not_eq_true, Option.isSome_eq_false_iff,
    Option.isNone_iff_eq_none] at h
  simp only [readiness, hasFailedParent, edges, h]
  rfl

theorem dependent_of_waiting (h : d.readiness id = .waiting) : id ∈ d.dependents := by
  by_contra hd
  rw [readiness_of_independent hd] at h
  cases h

theorem dependents_finalize (d : Dispatcher τ) (j : Job) :
    (d.finalize j).dependents = d.dependents := keys_mapEdges _ d.deps

theorem dependents_enqueue (d : Dispatcher τ) (task : τ) (j : Job) :
    (d.enqueue task j).dependents = d.dependents := by
  unfold enqueue
  rcases handleFor_cases d j.id with ⟨n, -, he⟩ | ⟨-, he⟩
  · rw [he]
    rfl
  · rw [he]
    rfl

theorem dependents_restart (d : Dispatcher τ) (now : Instant) (j : Job) :
    (d.restart now j).2.dependents = d.dependents := by
  rcases restart_cases d now j with ⟨c, he⟩ | ⟨task, current, -, -, -, -, he⟩
  · rw [he]
  · rw [he]
    exact (keys_refreshEdges _ _ _).trans (keys_mapEdges _ d.deps)

theorem dependents_look (hl : d.look now = some (d', b)) : d'.dependents = d.dependents := by
  obtain ⟨p, queue, -, -, hl⟩ := look_cases hl
  obtain ⟨handles, fresh, he, -⟩ := handleFor_eq d p.job.id
  rw [he] at hl
  cases hl with
  | cancelled => exact dependents_finalize _ _
  | launched => rfl
  | postponed => rfl
  | skipped => exact dependents_finalize _ _

theorem dependents_lookAll (now : Instant) (n : Nat) (settled : Bool) (d : Dispatcher τ) :
    (lookAll now n d settled).1.dependents = d.dependents := by
  apply lookAll_induction (motive := fun e ↦ e.dependents = d.dependents)
  · exact fun e e' b h hl ↦ (dependents_look hl).trans h
  · rfl

theorem mem_dependents_forgetAll (jobs : List Job) (d : Dispatcher τ) :
    id ∈ (jobs.foldl (fun d j ↦ d.forget j.id) d).dependents ↔
      id ∈ d.dependents ∧ id ∉ jobs.map (·.id) := by
  induction jobs generalizing d with
  | nil => simp
  | cons j jobs ih =>
    have hd : id ∈ (d.forget j.id).dependents ↔ id ∈ d.dependents ∧ id ≠ j.id := by
      simp only [dependents, Dispatcher.forget, remove, without, List.mem_map, List.mem_filter,
        decide_eq_true_eq]
      constructor
      · rintro ⟨x, ⟨hx, hne⟩, rfl⟩
        exact ⟨⟨x, hx, rfl⟩, hne⟩
      · rintro ⟨⟨x, hx, rfl⟩, hne⟩
        exact ⟨x, ⟨hx, hne⟩, rfl⟩
    rw [List.foldl_cons, ih, hd, List.map_cons, List.mem_cons, not_or, and_assoc]

/-- Which jobs have entries after an operation. A submission may add one, and entries go with
finished records. -/
theorem dependents_cases (hw : d.WellFormed) (now : Instant) (o : Operation τ) :
    (d.perform now o).dependents = d.dependents ∨
      (∃ task j parent, o = .enqueueAfter task j parent ∧ ∀ id,
        id ∈ (d.perform now o).dependents ↔ id ∈ d.dependents ∨ id = j.id) ∨
      ∃ ids : List String, (∀ id ∈ ids, ¬ d.Unfinished id) ∧
        ∀ id, id ∈ (d.perform now o).dependents ↔ id ∈ d.dependents ∧ id ∉ ids := by
  cases o with
  | load s fs => exact .inl (congrArg (fun g ↦ g.entries.map (·.1)) (takeUp_deps _ d))
  | enqueue task j => exact .inl (dependents_enqueue d task j)
  | enqueueAfter task j parent =>
    rcases enqueueAfter_cases hw.deps now task j parent with ⟨c, he⟩ | ⟨p, -, hok, he⟩
    · exact .inl (by rw [perform, he])
    · refine .inr (.inl ⟨task, j, parent, rfl, fun id ↦ ?_⟩)
      rcases add_cases hw.deps now j.id parent with ⟨c, hc⟩ | ⟨hc, -⟩
      · rw [hc] at hok
        cases hok
      · have hkeys : (d.perform now (.enqueueAfter task j parent)).dependents =
            (push j.id { created := now, parent } d.deps.entries).map (·.1) := by
          rw [perform, he, hc]
          simp only [dependents]
          split
          · exact keys_mapEdges _ _
          · rfl
        rw [hkeys, keys_push]
        split
        · next hj =>
          refine ⟨.inl, fun hid ↦ hid.elim (fun hid ↦ hid) ?_⟩
          rintro rfl
          exact hj
        · simp [dependents]
  | dispatchReady =>
    obtain ⟨wakeup, he⟩ := dispatchReady_eq d now
    refine .inl ?_
    rw [perform, he]
    exact dependents_lookAll now d.queue.size false d
  | report ticket j =>
    rcases report_cases d ticket j with he | ⟨a, -, -, -, ⟨-, he⟩ | ⟨-, he⟩⟩
    · exact .inl (by rw [perform, he])
    · exact .inl (by rw [perform, he]; exact dependents_finalize _ j)
    · exact .inl (by rw [perform, he]; rfl)
  | taskOver ticket panicked =>
    rcases taskOver_cases d now ticket panicked with he | ⟨a, -, error, he⟩
    · exact .inl (by rw [perform, he])
    · exact .inl (by rw [perform, he]; exact dependents_finalize _ _)
  | handleStop id =>
    rcases handleStop_cases d now id with ⟨-, he⟩ | ⟨n, -, ⟨-, he⟩ | ⟨p, queue, -, he⟩⟩
    · exact .inl (by rw [perform, he])
    · exact .inl (by rw [perform, he]; rfl)
    · exact .inl (by rw [perform, he]; exact dependents_finalize _ _)
  | restart j => exact .inl (dependents_restart d now j)
  | resume =>
    refine .inl (hw.resume_keeps (motive := fun e ↦ e.dependents = d.dependents) ?_ ?_ rfl)
    · exact fun e j _ h ↦ (dependents_restart e now j).trans h
    · exact fun e j error _ h _ ↦ h
  | clearIfFinished id =>
    rcases clearIfFinished_cases d id with he | ⟨j, hj, hf, he⟩
    · exact .inl (by rw [perform, he])
    · obtain rfl := hw.registry.id_of_get? hj
      refine .inr (.inr ⟨[j.id], by simpa using not_unfinished hj hf, fun id ↦ ?_⟩)
      rw [perform, he]
      exact mem_dependents_forgetAll [j] d
  | prune age =>
    rcases prune_cases d now age with he | ⟨cutoff, he⟩
    · exact .inl (by rw [he])
    · refine .inr (.inr ⟨(d.expired cutoff).map (·.id), fun id hid ↦ ?_, fun id ↦ ?_⟩)
      · obtain ⟨j, hj, rfl⟩ := List.mem_map.1 hid
        obtain ⟨hj, hf⟩ := List.mem_filter.1 hj
        exact not_unfinished (hw.registry.get?_of_mem_jobs hj) (Bool.and_eq_true_iff.1 hf).1
      · rw [he]
        exact mem_dependents_forgetAll _ d
  | delayNext =>
    obtain ⟨queue, he⟩ := delayNext_eq d
    exact .inl (by rw [perform, he]; rfl)

theorem mem_dependents_perform (hw : d.WellFormed) (h : id ∈ (d.perform now o).dependents) :
    id ∈ d.dependents ∨ ∃ task j parent, o = .enqueueAfter task j parent ∧ j.id = id := by
  rcases dependents_cases hw now o with he | ⟨task, j, parent, rfl, he⟩ | ⟨ids, -, he⟩
  · exact .inl (he ▸ h)
  · rcases (he id).1 h with h | rfl
    · exact .inl h
    · exact .inr ⟨task, j, parent, rfl, rfl⟩
  · exact .inl ((he id).1 h).1

theorem dependents_kept (hw : d.WellFormed) (hu : d.Unfinished id) (h : id ∈ d.dependents) :
    id ∈ (d.perform now o).dependents := by
  rcases dependents_cases hw now o with he | ⟨task, j, parent, rfl, he⟩ | ⟨ids, hf, he⟩
  · exact he ▸ h
  · exact (he id).2 (.inl h)
  · exact (he id).2 ⟨h, fun hid ↦ hf id hid hu⟩

theorem Trace.entries_sorted {events : List (Event τ)} (h : Trace now d events d') :
    d.fresh ≤ d'.fresh ∧ (∀ p ∈ events.filterMap Event.entry?, d.fresh ≤ p.ticket) ∧
      (events.filterMap Event.entry?).Pairwise (·.ticket < ·.ticket) := by
  induction h with
  | nil d => exact ⟨le_rfl, by simp, .nil⟩
  | @cons d d₁ d' ev events heff _ ih =>
    obtain ⟨hfresh, hge, hsorted⟩ := ih
    have hle := heff.fresh
    refine ⟨hle.trans hfresh, ?_⟩
    cases hent : ev.entry? with
    | none =>
      rw [List.filterMap_cons_none hent]
      exact ⟨fun p hp ↦ hle.trans (hge p hp), hsorted⟩
    | some p =>
      have hp := Books.fresh_le_of_entry heff hent
      have hlt := heff.ticket p hent
      rw [List.filterMap_cons_some hent, List.pairwise_cons]
      refine ⟨fun q hq ↦ ?_, fun q hq ↦ ?_, hsorted⟩
      · rcases List.mem_cons.1 hq with rfl | hq
        · exact hp
        · exact hle.trans (hge q hq)
      · exact Nat.lt_of_lt_of_le hlt (hge q hq)

theorem entries_sorted (hw : d.WellFormed) (now : Instant) (o : Operation τ) :
    (∀ p ∈ Step.entries ⟨d, now, o⟩, d.fresh ≤ p.ticket) ∧
      (Step.entries ⟨d, now, o⟩).Pairwise (·.ticket < ·.ticket) := by
  by_cases ho : ∃ s fs, o = .load s fs
  · obtain ⟨s, fs, rfl⟩ := ho
    exact ⟨fun p hp ↦ (by cases hp), List.Pairwise.nil⟩
  · obtain ⟨events, ht, -, hent⟩ := hw.unfolds now fun s fs he ↦ ho ⟨s, fs, he⟩
    rw [← hent]
    exact ht.entries_sorted.2

theorem Trace.queued_before {events : List (Event τ)} (h : Trace now d events d')
    (ha : a ∈ d'.queue.toList) : a ∈ d.queue.toList ∨ a ∈ events.filterMap Event.entry? := by
  apply h.keeps (motive := fun e ↦ a ∈ e.queue.toList →
    a ∈ d.queue.toList ∨ a ∈ events.filterMap Event.entry?)
  · intro e ev hev e' hkeep heff hq
    rcases heff.queue a hq with hq | hq
    · exact hkeep hq
    · exact .inr (List.mem_filterMap.2 ⟨ev, hev, hq⟩)
  · exact .inl
  · exact ha

theorem queued_before (hw : d.WellFormed) (ho : ∀ s fs, o ≠ .load s fs)
    (h : a ∈ (d.perform now o).queue.toList) :
    a ∈ d.queue.toList ∨ a ∈ Step.entries ⟨d, now, o⟩ := by
  obtain ⟨events, ht, -, hent⟩ := hw.unfolds now ho
  rw [← hent]
  exact ht.queued_before h

theorem queued_before_lookAll (hw : d.WellFormed) (now : Instant) (n : Nat) (settled : Bool)
    (h : a ∈ (lookAll now n d settled).1.queue.toList) : a ∈ d.queue.toList := by
  obtain ⟨events, ht, hev⟩ := lookAll_trace hw now n settled
  refine (ht.queued_before h).resolve_right fun hm ↦ ?_
  obtain ⟨ev, hmem, hent⟩ := List.mem_filterMap.1 hm
  rw [(hev ev hmem).2] at hent
  cases hent

/-- All submissions in the order in which they were made. -/
def sequence (past : List (Step τ)) : List (Pending τ) := past.reverse.flatMap Step.entries

theorem sequence_cons (s : Step τ) (past : List (Step τ)) :
    sequence (s :: past) = sequence past ++ s.entries := by simp [sequence]

theorem mem_sequence : a ∈ sequence past ↔ a ∈ entered past := by simp [sequence, entered]

theorem Run.sequence_sorted (h : Run NewIds past d) :
    (sequence past).Pairwise (·.ticket < ·.ticket) := by
  induction h with
  | start => exact .nil
  | @step past d now o hrun _ ih =>
    have hb := hrun.books_of_load fun _ _ _ _ ho ↦ ho.1
    obtain ⟨hge, hsorted⟩ := entries_sorted hrun.wellFormed now o
    rw [sequence_cons, List.pairwise_append]
    refine ⟨ih, hsorted, fun p hp q hq ↦ ?_⟩
    have hlt := hb.lt p (mem_sequence.1 hp)
    have hle := hge q hq
    omega

def Operation.Submits : Operation τ → Prop
  | .enqueue _ _ | .enqueueAfter _ _ _ | .restart _ | .resume => True
  | _ => False

theorem toList_enqueue (hv : d.queue.Valid) (task : τ) (j : Job) :
    (d.enqueue task j).queue.toList = d.queue.toList ++ [d.submission task j] := by
  have he := (hv.enqueue (d.submission task j)).2
  rw [← he, enqueue, submission]
  simp only [handleFor_queue]

theorem toList_enqueueAfter (hw : d.WellFormed) (now : Instant) (task : τ) (j : Job)
    (parent : String) : (d.enqueueAfter now task j parent).2.queue.toList =
      d.queue.toList ++ Step.entries ⟨d, now, .enqueueAfter task j parent⟩ := by
  rcases enqueueAfter_cases hw.deps now task j parent with ⟨c, he⟩ | ⟨p, -, -, he⟩
  · simp [Step.entries, he, Except.isOk, Except.toBool]
  · simp only [Step.entries, he, Except.isOk, Except.toBool, ↓reduceIte]
    exact toList_enqueue hw.queue task j

theorem toList_restart (hw : d.WellFormed) (now : Instant) (j : Job) :
    (d.restart now j).2.queue.toList = d.queue.toList ++ (d.resubmission now j).toList := by
  cases hp : d.prepareRestart now ((d.registry.get? j.id).getD j) with
  | error c => simp [restart, resubmission, hp]
  | ok x =>
    obtain ⟨again, task⟩ := x
    simp only [restart, resubmission, hp, Option.toList_some]
    refine (toList_enqueue (by exact hw.queue) task again).trans ?_
    simp only [submission, handleFor]
    cases d.handles.lookup again.id <;> rfl

theorem toList_resumeAll (hw : d.WellFormed) (now : Instant) (jobs : List Job) :
    (resumeAll now jobs d).2.queue.toList = d.queue.toList ++
      (restartCalls now jobs d).filterMap fun c ↦ c.1.resubmission now c.2 := by
  induction jobs generalizing d with
  | nil => simp [resumeAll, restartCalls]
  | cons j jobs ih =>
    have hone : (resumeAll now [j] d).2.queue.toList =
        d.queue.toList ++ (d.resubmission now j).toList := by
      rw [← toList_restart hw]
      simp only [resumeAll]
      rcases d.restart now j with ⟨_ | _, e⟩
      · rfl
      · rfl
    rw [resumeAll_cons, ih (hw.resumeAll now [j]), hone, restartCalls, List.append_assoc]
    cases hr : d.resubmission now j with
    | none => simp [hr]
    | some p => simp [hr]

theorem toList_submits (hw : d.WellFormed) (now : Instant) (ho : o.Submits) :
    (d.perform now o).queue.toList = d.queue.toList ++ Step.entries ⟨d, now, o⟩ := by
  cases o with
  | enqueue task j => exact toList_enqueue hw.queue task j
  | enqueueAfter task j parent => exact toList_enqueueAfter hw now task j parent
  | restart j => exact toList_restart hw now j
  | resume => exact toList_resumeAll hw now _
  | load | dispatchReady | report | taskOver | handleStop | clearIfFinished | prune | delayNext =>
    exact absurd ho not_false

theorem entries_eq_nil (ho : ¬ o.Submits) : Step.entries ⟨d, now, o⟩ = [] := by
  cases o with
  | enqueue | enqueueAfter | restart | resume => exact absurd trivial ho
  | load | dispatchReady | report | taskOver | handleStop | clearIfFinished | prune | delayNext =>
    rfl

theorem sublist_perform (hw : d.WellFormed) (now : Instant) (ho : ¬ o.Submits)
    (hp : o ≠ .dispatchReady) (hd : o ≠ .delayNext) :
    (d.perform now o).queue.toList.Sublist d.queue.toList := by
  cases o with
  | enqueue | enqueueAfter | restart | resume => exact absurd trivial ho
  | dispatchReady => exact absurd rfl hp
  | delayNext => exact absurd rfl hd
  | load s fs =>
    obtain ⟨registry, detached, he⟩ := takeUp_eq (s.loadOrEmpty fs) d
    change (d.takeUp (s.loadOrEmpty fs)).queue.toList.Sublist _
    rw [he]
  | report ticket j =>
    rcases report_cases d ticket j with he | ⟨a, -, -, -, ⟨-, he⟩ | ⟨-, he⟩⟩
    · rw [perform, he]
    · rw [perform, he]
      exact .refl _
    · rw [perform, he]
      exact .refl _
  | taskOver ticket panicked =>
    rcases taskOver_cases d now ticket panicked with he | ⟨a, -, error, he⟩
    · rw [perform, he]
    · rw [perform, he]
      exact .refl _
  | handleStop id =>
    rcases handleStop_cases d now id with ⟨-, he⟩ | ⟨n, -, ⟨-, he⟩ | ⟨p, queue, hr, he⟩⟩
    · rw [perform, he]
    · rw [perform, he]
    · obtain ⟨-, -, as, bs, hl, -, hl'⟩ := hw.queue.remove_eq_some hr
      rw [perform, he]
      change queue.toList.Sublist d.queue.toList
      rw [hl, hl']
      exact (List.sublist_cons_self p bs).append_left as
  | clearIfFinished id =>
    rcases clearIfFinished_cases d id with he | ⟨j, -, -, he⟩
    · rw [perform, he]
    · rw [perform, he]
      exact .refl _
  | prune age =>
    rcases prune_cases d now age with he | ⟨cutoff, he⟩
    · rw [he]
    · rw [he]
      apply pruneBefore_induction (motive := fun e ↦ e.queue.toList.Sublist d.queue.toList) cutoff
      · exact fun _ _ _ h ↦ h
      · exact .refl _

/-- What was submitted after `a` is neither in front of it nor launched. -/
structure Leads (a : Pending τ) (d : Dispatcher τ) : Prop where
  front : d.queue.toList.Pairwise fun q p ↦ p = a → q.ticket < a.ticket
  launched : ∀ l ∈ d.launches, l.attempt.ticket < a.ticket
  free : a.job.id ∉ d.dependents

namespace Leads

theorem step (h : Leads a d) {qs ps : List (Pending τ)} (hq : d'.queue.toList = qs ++ ps)
    (hqs : qs.Sublist d.queue.toList) (hps : ∀ p ∈ ps, p ≠ a)
    (hl : ∀ l ∈ d'.launches, l ∈ d.launches ∨ l.attempt.ticket < a.ticket)
    (hd : a.job.id ∈ d'.dependents → a.job.id ∈ d.dependents) : Leads a d' where
  front := by
    rw [hq, List.pairwise_append]
    refine ⟨h.front.sublist hqs, ?_, fun _ _ p hp he ↦ absurd he (hps p hp)⟩
    exact List.pairwise_of_forall_mem_list fun _ _ p hp he ↦ absurd he (hps p hp)
  launched l hm := by
    rcases hl l hm with hm | hlt
    · exact h.launched l hm
    · exact hlt
  free hm := h.free (hd hm)

/-- A pass puts nothing behind the other entries but jobs that wait, and these have entries in the
graph. -/
theorem look (h : a ∈ d.queue.toList → Leads a d) (hw : d.WellFormed)
    (hl : d.look now = some (d', b)) (ha : a ∈ d'.queue.toList) : Leads a d' := by
  have hdep := dependents_look hl
  have hsub : a.job.id ∈ d'.dependents → a.job.id ∈ d.dependents := by
    rw [hdep]
    exact fun hm ↦ hm
  obtain ⟨p, queue, -, hq, hl⟩ := look_cases hl
  obtain ⟨hv, hlist⟩ := hw.queue.dequeue_eq_some hq
  obtain ⟨handles, fresh, he, -⟩ := handleFor_eq d p.job.id
  have hrest : queue.toList.Sublist d.queue.toList := by
    rw [hlist]
    exact List.sublist_cons_self _ _
  rw [he] at hl
  cases hl with
  | cancelled | skipped =>
    exact (h (hrest.subset ha)).step (List.append_nil _).symm hrest (by simp) (fun _ hm ↦ .inl hm)
      hsub
  | launched =>
    have ha : a ∈ queue.toList := ha
    have h := h (hrest.subset ha)
    refine h.step (List.append_nil _).symm hrest (by simp) (fun l hm ↦ ?_) hsub
    refine (List.mem_append.1 hm).imp_right fun hm ↦ ?_
    obtain rfl := List.mem_singleton.1 hm
    have hfront := h.front
    rw [hlist, List.pairwise_cons] at hfront
    exact hfront.1 a ha rfl
  | postponed hr =>
    have hlist' : (queue.enqueue p).toList = queue.toList ++ [p] := (hv.enqueue p).2
    have ha : a ∈ (queue.enqueue p).toList := ha
    have hm : a ∈ d.queue.toList := by
      rw [hlist', List.mem_append, List.mem_singleton] at ha
      rw [hlist, List.mem_cons]
      exact ha.symm
    have hwait : p.job.id ∈ d.dependents := dependent_of_waiting hr
    refine (h hm).step hlist' hrest (fun q hq ↦ ?_) (fun _ hm ↦ .inl hm) hsub
    obtain rfl := List.mem_singleton.1 hq
    rintro rfl
    exact (h hm).free hwait

theorem lookAll (h : a ∈ d.queue.toList → Leads a d) (hw : d.WellFormed) (now : Instant) (n : Nat)
    (settled : Bool) (ha : a ∈ (lookAll now n d settled).1.queue.toList) :
    Leads a (lookAll now n d settled).1 := by
  have hlook (e e' : Dispatcher τ) (b : Bool)
      (he : e.WellFormed ∧ (a ∈ e.queue.toList → Leads a e)) (hl : e.look now = some (e', b)) :
      e'.WellFormed ∧ (a ∈ e'.queue.toList → Leads a e') :=
    ⟨he.1.look hl, look he.2 he.1 hl⟩
  exact (lookAll_induction hlook n ⟨hw, h⟩ settled).2 ha

theorem perform (h : a ∈ d.queue.toList → Leads a d) (hw : d.WellFormed)
    (hlt : a.ticket < d.fresh) (hload : ∀ s fs, o ≠ .load s fs) (hdelay : o ≠ .delayNext)
    (hnew : ∀ task j parent, o = .enqueueAfter task j parent → j.id ∉ d.active) (now : Instant)
    (ha : a ∈ (d.perform now o).queue.toList) : Leads a (d.perform now o) := by
  obtain ⟨hge, -⟩ := entries_sorted hw now o
  have hmem : a ∈ d.queue.toList := by
    refine (queued_before hw hload ha).resolve_right fun hm ↦ ?_
    exact absurd hlt (Nat.not_lt.2 (hge a hm))
  have hdep : a.job.id ∈ (d.perform now o).dependents → a.job.id ∈ d.dependents := by
    intro hm
    rcases mem_dependents_perform hw hm with hm | ⟨task, j, parent, rfl, hid⟩
    · exact hm
    · exact absurd (hid ▸ List.mem_append_left _ (mem_queued hmem)) (hnew task j parent rfl)
  by_cases hp : o = .dispatchReady
  · subst hp
    obtain ⟨wakeup, he⟩ := dispatchReady_eq d now
    have hl := lookAll h hw now d.queue.size false
    rw [Dispatcher.perform, he] at ha ⊢
    exact ⟨(hl ha).front, (hl ha).launched, (hl ha).free⟩
  · have hlaunch : ∀ l ∈ (d.perform now o).launches,
        l ∈ d.launches ∨ l.attempt.ticket < a.ticket := by
      rw [hw.launches_eq now hp]
      exact fun l hl ↦ .inl hl
    by_cases ho : o.Submits
    · refine (h hmem).step (toList_submits hw now ho) (.refl _) (fun p hm ↦ ?_) hlaunch hdep
      rintro rfl
      exact absurd hlt (Nat.not_lt.2 (hge p hm))
    · exact (h hmem).step (List.append_nil _).symm (sublist_perform hw now ho hp hdelay)
        (by simp) hlaunch hdep

end Leads

/-- Submitted ids are new, the state file is read at the very beginning, and nobody delays the head
of the queue. -/
def Undelayed (past : List (Step τ)) (d : Dispatcher τ) (o : Operation τ) : Prop :=
  NewIds past d o ∧ o ≠ .delayNext

theorem Run.newIds (h : Run Undelayed past d) : Run NewIds past d := h.mono fun _ _ _ ho ↦ ho.1

theorem Run.ticket_lt (h : Run NewIds past d) (ha : a ∈ entered past) : a.ticket < d.fresh :=
  (h.books_of_load fun _ _ _ _ ho ↦ ho.1).lt a ha

theorem Run.leads_entry (h : Run NewIds past d) (ha : a ∈ Step.entries ⟨d, now, o⟩)
    (hfree : a.job.id ∉ (d.perform now o).dependents) : Leads a (d.perform now o) := by
  have hw := h.wellFormed
  have hb := h.books_of_load fun _ _ _ _ ho ↦ ho.1
  obtain ⟨hge, hsorted⟩ := entries_sorted hw now o
  have hle := hge a ha
  have ho : o.Submits := by
    by_contra ho
    rw [entries_eq_nil ho] at ha
    cases ha
  have hp : o ≠ .dispatchReady := by
    rintro rfl
    exact ho
  have hold {p : Pending τ} (hp : p ∈ d.queue.toList) : p.ticket < d.fresh :=
    hw.tickets_lt _ (List.mem_append_left _ (List.mem_map_of_mem hp))
  refine ⟨?_, fun l hl ↦ ?_, hfree⟩
  · rw [toList_submits hw now ho, List.pairwise_append]
    refine ⟨?_, hsorted.imp fun hlt he ↦ he ▸ hlt, fun q hq p hp he ↦ ?_⟩
    · refine List.pairwise_of_forall_mem_list fun q hq p hp he ↦ ?_
      have hlt := hold (he ▸ hp)
      omega
    · have hlt := hold hq
      omega
  · rw [hw.launches_eq now hp] at hl
    have hlt := hb.ticket_lt_of_launch hl
    omega

theorem Run.leads {s : Step τ} (h : Run Undelayed (later ++ s :: earlier) d) (hs : a ∈ s.entries)
    (hfree : a.job.id ∉ (s.before.perform s.now s.operation).dependents)
    (ha : a ∈ d.queue.toList) : Leads a d := by
  induction later generalizing d with
  | nil =>
    cases h with
    | step now o hrun _ => exact hrun.newIds.leads_entry hs hfree
  | cons s' later ih =>
    cases h with
    | @step _ e now o hrun ho =>
      have hmem : a ∈ entered (later ++ s :: earlier) :=
        List.mem_flatMap.2 ⟨s, List.mem_append_right _ List.mem_cons_self, hs⟩
      have hload : ∀ s fs, o ≠ .load s fs := by
        rintro s fs rfl
        simpa using ho.1.1
      refine Leads.perform (ih hrun) hrun.wellFormed (hrun.newIds.ticket_lt hmem) hload ho.2 ?_ now
        ha
      rintro task j parent rfl
      exact (hrun.newIds.idle_of_not_used ho.1).1

theorem Run.dependent_later {s : Step τ} (h : Run NewIds (later ++ s :: earlier) d)
    (hs : a ∈ s.entries) (hf : a.job.finished = false)
    (hdep : a.job.id ∈ (s.before.perform s.now s.operation).dependents)
    (ha : a ∈ d.queue.toList) : a.job.id ∈ d.dependents := by
  induction later generalizing d with
  | nil =>
    cases h
    exact hdep
  | cons s' later ih =>
    cases h with
    | @step _ e now o hrun ho =>
      have hw := hrun.wellFormed
      have hmem : a ∈ entered (later ++ s :: earlier) :=
        List.mem_flatMap.2 ⟨s, List.mem_append_right _ List.mem_cons_self, hs⟩
      have hlt := hrun.ticket_lt hmem
      have hload : ∀ s fs, o ≠ .load s fs := by
        rintro s fs rfl
        simpa using ho.1
      have hq : a ∈ e.queue.toList := by
        refine (queued_before hw hload ha).resolve_right fun hm ↦ ?_
        exact absurd hlt (Nat.not_lt.2 ((entries_sorted hw now o).1 a hm))
      exact dependents_kept hw (hrun.engaged.registered a hq hf) (ih hrun hq)

/-- A submission whose job had no entry in the dependency graph when it was made. -/
def Independent (past : List (Step τ)) (a : Pending τ) : Prop :=
  ∃ s ∈ past, a ∈ s.entries ∧
    (s.before.perform s.now s.operation).deps.hasDependencies a.job.id = false

theorem Run.independent (h : Run NewIds past d) (hm : a ∈ entered past)
    (hf : a.job.finished = false) (hd : d.deps.hasDependencies a.job.id = false)
    (ha : a ∈ d.queue.toList) : Independent past a := by
  obtain ⟨s, hs, hmem⟩ := List.mem_flatMap.1 hm
  obtain ⟨later, earlier, rfl⟩ := List.append_of_mem hs
  refine ⟨s, hs, hmem, Bool.eq_false_iff.2 fun hdep ↦ ?_⟩
  have hlater := h.dependent_later hmem hf (mem_dependents.2 hdep) ha
  rw [mem_dependents, hd] at hlater
  cases hlater

theorem Run.leads_lookAll (h : Run Undelayed past d) (ha : Independent past a) (now : Instant)
    (n : Nat) (hq : a ∈ (lookAll now n d false).1.queue.toList) :
    Leads a (lookAll now n d false).1 := by
  obtain ⟨s, hs, hent, hfree⟩ := ha
  obtain ⟨later, earlier, rfl⟩ := List.append_of_mem hs
  have hfree : a.job.id ∉ (s.before.perform s.now s.operation).dependents := by
    rw [mem_dependents, hfree]
    exact Bool.false_ne_true
  exact Leads.lookAll (h.leads hent hfree) h.wellFormed now n false hq

theorem Run.independent_iff (h : Run Undelayed past d) (hm : a ∈ entered past)
    (hf : a.job.finished = false) (now : Instant) (n : Nat)
    (hq : a ∈ (lookAll now n d false).1.queue.toList) :
    Independent past a ↔ (lookAll now n d false).1.deps.hasDependencies a.job.id = false := by
  constructor
  · intro ha
    rw [Bool.eq_false_iff, ne_eq, ← mem_dependents]
    exact (h.leads_lookAll ha now n hq).free
  · intro hd
    rw [Bool.eq_false_iff, ne_eq, ← mem_dependents, dependents_lookAll, mem_dependents,
      Bool.not_eq_true] at hd
    exact h.newIds.independent hm hf hd (queued_before_lookAll h.wellFormed now n false hq)

/-- At no point of any pass has something been launched that was submitted after a job which had no
entry in the dependency graph when it was submitted and is still queued. For a job that was
submitted unfinished this is to have no entry now. -/
theorem independent_jobs_in_order (h : Run Undelayed past d) {a b : Pending τ}
    (hab : [a, b].Sublist (sequence past)) (now : Instant) (n : Nat)
    (hq : a ∈ (lookAll now n d false).1.queue.toList) :
    (Independent past a → ∀ l ∈ (lookAll now n d false).1.launches, l.attempt.ticket ≠ b.ticket) ∧
      (a.job.finished = false → (Independent past a ↔
        (lookAll now n d false).1.deps.hasDependencies a.job.id = false)) := by
  refine ⟨fun ha l hl he ↦ ?_, fun hf ↦ ?_⟩
  · have hlt : a.ticket < b.ticket := by
      have hsorted := h.newIds.sequence_sorted.sublist hab
      exact (List.pairwise_cons.1 hsorted).1 b List.mem_cons_self
    have hlaunched := (h.leads_lookAll ha now n hq).launched l hl
    omega
  · exact h.independent_iff (mem_sequence.1 (hab.subset List.mem_cons_self)) hf now n hq

def sampleQueue : List (Step Unit) × Dispatcher Unit :=
  replay sampleInstant [] (create 1 { maxConcurrent := 2 } {})
    [.enqueue () (sampleJob "first"), .enqueueAfter () (sampleJob "waiting") "first",
      .enqueue () (sampleJob "second"), .enqueue () (sampleJob "third"),
      .enqueue () (sampleJob "fourth")]

theorem sampleQueue_run : Run Undelayed sampleQueue.1 sampleQueue.2 := by
  have h : Run Undelayed [] (create 1 { maxConcurrent := 2 } ({} : Runners Unit)) := .start 1 _ _
  have h := h.step sampleInstant (.enqueue () (sampleJob "first"))
    ⟨by unfold NewIds; decide +kernel, nofun⟩
  have h := h.step sampleInstant (.enqueueAfter () (sampleJob "waiting") "first")
    ⟨by unfold NewIds; decide +kernel, nofun⟩
  have h := h.step sampleInstant (.enqueue () (sampleJob "second"))
    ⟨by unfold NewIds; decide +kernel, nofun⟩
  have h := h.step sampleInstant (.enqueue () (sampleJob "third"))
    ⟨by unfold NewIds; decide +kernel, nofun⟩
  exact h.step sampleInstant (.enqueue () (sampleJob "fourth"))
    ⟨by unfold NewIds; decide +kernel, nofun⟩

theorem independent_jobs_in_order_sample :
    let d := (lookAll sampleInstant 5 sampleQueue.2 false).1
    d.launches.map (·.attempt.id) = ["first", "second"] ∧
    d.queued = ["third", "fourth", "waiting"] ∧
    [⟨7, (), sampleJob "third"⟩, ⟨9, (), sampleJob "fourth"⟩].Sublist (sequence sampleQueue.1) ∧
    ∀ l ∈ d.launches, l.attempt.ticket ≠ 9 := by
  have hab : [⟨7, (), sampleJob "third"⟩, ⟨9, (), sampleJob "fourth"⟩].Sublist
      (sequence sampleQueue.1) := by decide +kernel
  obtain ⟨horder, hind⟩ :=
    independent_jobs_in_order sampleQueue_run hab sampleInstant 5 (by decide +kernel)
  exact ⟨by decide +kernel, by decide +kernel, hab, horder ((hind rfl).2 (by decide +kernel))⟩

def forgottenEntry : List (Step Unit) × Dispatcher Unit :=
  replay sampleInstant [] (create 1 { maxConcurrent := 2 } {})
    [.enqueue () (sampleJob "first"),
      .enqueueAfter () ((sampleJob "waiting").finish sampleInstant) "first",
      .enqueue () (sampleJob "second"), .dispatchReady, .clearIfFinished "waiting"]

theorem forgottenEntry_run : Run Undelayed forgottenEntry.1 forgottenEntry.2 := by
  have h : Run Undelayed [] (create 1 { maxConcurrent := 2 } ({} : Runners Unit)) := .start 1 _ _
  have h := h.step sampleInstant (.enqueue () (sampleJob "first"))
    ⟨by unfold NewIds; decide +kernel, nofun⟩
  have h := h.step sampleInstant
    (.enqueueAfter () ((sampleJob "waiting").finish sampleInstant) "first")
    ⟨by unfold NewIds; decide +kernel, nofun⟩
  have h := h.step sampleInstant (.enqueue () (sampleJob "second"))
    ⟨by unfold NewIds; decide +kernel, nofun⟩
  have h := h.step sampleInstant .dispatchReady ⟨trivial, nofun⟩
  exact h.step sampleInstant (.clearIfFinished "waiting") ⟨trivial, nofun⟩

/-- A job with no entry any more may have been overtaken while it had one. -/
theorem forgotten_entry_overtaken :
    ¬ ∀ (past : List (Step Unit)) (d : Dispatcher Unit) (a b : Pending Unit),
      Run Undelayed past d → [a, b].Sublist (sequence past) →
      d.deps.hasDependencies a.job.id = false → d.deps.hasDependencies b.job.id = false →
      a ∈ d.queue.toList → ∀ l ∈ d.launches, l.attempt.ticket ≠ b.ticket := by
  intro horder
  have hlaunched : ∃ l ∈ forgottenEntry.2.launches, l.attempt.ticket = 5 := by decide +kernel
  obtain ⟨l, hl, he⟩ := hlaunched
  exact horder _ _ ⟨3, (), (sampleJob "waiting").finish sampleInstant⟩
    ⟨5, (), sampleJob "second"⟩ forgottenEntry_run (by decide +kernel) (by decide +kernel)
    (by decide +kernel) (by decide +kernel) l hl he

end JobEngine.Dispatcher
