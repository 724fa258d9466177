import JobEngine.Proofs.Dispatcher.Events

namespace JobEngine.Dispatcher

variable {τ : Type} {d d' : Dispatcher τ} {now : Instant} {ev : Event τ} {events : List (Event τ)}
  {entries : List (Pending τ)} {past : List (Step τ)} {o : Operation τ}

def Step.accepts (s : Step τ) : List String :=
  match s.operation with
  | .enqueue _ j => [j.id]
  | .enqueueAfter task j parent =>
    if (s.before.enqueueAfter s.now task j parent).1.isOk then [j.id] else []
  | .restart j => if (s.before.restart s.now j).1.isOk then [j.id] else []
  | .resume => (restartCalls s.now s.before.detached.listed s.before).flatMap fun c ↦
      if (c.1.restart s.now c.2).1.isOk then [c.2.id] else []
  | _ => []

def submissions (past : List (Step τ)) : List String := past.flatMap Step.accepts

def entered (past : List (Step τ)) : List (Pending τ) := past.flatMap Step.entries

theorem resubmission_ids (hw : d.WellFormed) (now : Instant) (j : Job) :
    (d.resubmission now j).toList.map (·.job.id) =
      if (d.restart now j).1.isOk then [j.id] else [] := by
  rcases resubmission_cases hw now j with ⟨⟨c, he⟩, hn⟩ | ⟨p, hp, hok, hid, -⟩
  · rw [he, hn]
    rfl
  · rw [hp, hok, ← hid]
    rfl

theorem restartCalls_ids (hw : d.WellFormed) (now : Instant) (jobs : List Job) :
    ((restartCalls now jobs d).filterMap fun c ↦ c.1.resubmission now c.2).map (·.job.id) =
      (restartCalls now jobs d).flatMap fun c ↦
        if (c.1.restart now c.2).1.isOk then [c.2.id] else [] := by
  induction jobs generalizing d with
  | nil => rfl
  | cons j jobs ih =>
    rw [restartCalls, List.flatMap_cons, ← ih (hw.resumeAll now [j]), ← resubmission_ids hw]
    cases hr : d.resubmission now j with
    | none => simp [hr]
    | some p => simp [hr]

theorem entries_ids (hw : d.WellFormed) (now : Instant) (o : Operation τ) :
    (Step.entries ⟨d, now, o⟩).map (·.job.id) = Step.accepts ⟨d, now, o⟩ := by
  cases o with
  | enqueueAfter task j parent =>
    simp only [Step.entries, Step.accepts]
    split <;> rfl
  | restart j => exact resubmission_ids hw now j
  | resume => exact restartCalls_ids hw now _
  | load | enqueue | dispatchReady | report | taskOver | handleStop | clearIfFinished | prune
  | delayNext => rfl

theorem Run.entered_ids {ok : List (Step τ) → Dispatcher τ → Operation τ → Prop}
    (h : Run ok past d) : (entered past).map (·.job.id) = submissions past := by
  induction h with
  | start => rfl
  | step now o hrun _ ih =>
    rw [entered, submissions, List.flatMap_cons, List.flatMap_cons, List.map_append,
      entries_ids hrun.wellFormed]
    exact congrArg (_ ++ ·) ih

/-- The books of a dispatcher into whose queue `entries` were put. Tickets tell the submissions
apart: each has a notice or is underway, and is launched at most once, with its own task. -/
structure Books (entries : List (Pending τ)) (d : Dispatcher τ) : Prop where
  settled : ∃ endings : List (Nat × Job), d.notices = endings.map (·.2) ∧
    (entries.map fun p ↦ (p.ticket, p.job.id)).Perm
      (endings.map (fun x ↦ (x.1, x.2.id)) ++ d.underway)
  nodup : (entries.map (·.ticket)).Nodup
  lt : ∀ p ∈ entries, p.ticket < d.fresh
  queued : ∀ p ∈ d.queue.toList, p ∈ entries
  once : (d.launches.map (·.attempt.ticket)).Nodup
  unqueued : ∀ l ∈ d.launches, ∀ p ∈ d.queue.toList, p.ticket ≠ l.attempt.ticket
  launched : ∀ l ∈ d.launches, ∃ p ∈ entries, p.ticket = l.attempt.ticket ∧ p.task = l.task

namespace Books

theorem perm {entries' : List (Pending τ)} (h : Books entries d) (hp : entries.Perm entries') :
    Books entries' d := by
  obtain ⟨endings, hn, hu⟩ := h.settled
  exact { h with
    settled := ⟨endings, hn, (hp.symm.map _).trans hu⟩
    nodup := (hp.map _).nodup_iff.1 h.nodup
    lt := fun p hm ↦ h.lt p (hp.mem_iff.2 hm)
    queued := fun p hm ↦ hp.mem_iff.1 (h.queued p hm)
    launched := fun l hl ↦ by
      obtain ⟨p, hm, he⟩ := h.launched l hl
      exact ⟨p, hp.mem_iff.1 hm, he⟩ }

theorem settle (h : Books entries d) (heff : Effect now d ev d') :
    ∃ endings : List (Nat × Job), d'.notices = endings.map (·.2) ∧
      ((entries ++ ev.entry?.toList).map fun p ↦ (p.ticket, p.job.id)).Perm
        (endings.map (fun x ↦ (x.1, x.2.id)) ++ d'.underway) := by
  obtain ⟨endings, hn, hu⟩ := h.settled
  refine ⟨endings ++ ev.ending?.toList, ?_, ?_⟩
  · rw [heff.notices, hn, List.map_append]
  · rw [List.map_append, List.map_append, List.append_assoc]
    refine (hu.append_right _).trans ?_
    rw [List.append_assoc]
    exact heff.underway.append_left _

theorem fresh_le_of_entry (heff : Effect now d ev d') {p : Pending τ} (hp : ev.entry? = some p) :
    d.fresh ≤ p.ticket := by
  have hguard := heff.guard
  rcases Event.eq_of_entry hp with rfl | rfl
  · exact hguard
  · exact hguard.1

theorem ticket_lt_of_launch (h : Books entries d) {l : Launch τ} (hl : l ∈ d.launches) :
    l.attempt.ticket < d.fresh := by
  obtain ⟨p, hp, ht, -⟩ := h.launched l hl
  exact ht ▸ h.lt p hp

theorem nodup_append (h : Books entries d) (heff : Effect now d ev d') :
    ((entries ++ ev.entry?.toList).map (·.ticket)).Nodup := by
  cases hent : ev.entry? with
  | none => simpa using h.nodup
  | some p =>
    have hp := fresh_le_of_entry heff hent
    rw [Option.toList_some, List.map_append, List.nodup_append]
    refine ⟨h.nodup, List.nodup_singleton _, ?_⟩
    intro t ht t' ht'
    obtain ⟨q, hq, rfl⟩ := List.mem_map.1 ht
    have hlt := h.lt q hq
    have ht' : t' = p.ticket := by simpa using ht'
    omega

theorem once_append (h : Books entries d) (heff : Effect now d ev d') :
    (d'.launches.map (·.attempt.ticket)).Nodup := by
  rw [heff.launches]
  cases hl : ev.launch? with
  | none => simpa using h.once
  | some l =>
    obtain rfl := Event.eq_launched hl
    obtain ⟨p, hp, -, handle, rfl⟩ := heff.guard
    rw [Option.toList_some, List.map_append, List.nodup_append]
    refine ⟨h.once, List.nodup_singleton _, ?_⟩
    intro t ht t' ht'
    obtain ⟨l, hl, rfl⟩ := List.mem_map.1 ht
    have ht' : t' = p.ticket := by simpa using ht'
    rw [ht']
    exact Ne.symm (h.unqueued l hl p hp)

theorem unqueued_append (h : Books entries d) (heff : Effect now d ev d') :
    ∀ l ∈ d'.launches, ∀ p ∈ d'.queue.toList, p.ticket ≠ l.attempt.ticket := by
  intro l hl p hp
  rw [heff.launches] at hl
  rcases List.mem_append.1 hl with hl | hl
  · rcases heff.queue p hp with hp | hp
    · exact h.unqueued l hl p hp
    · have hge := fresh_le_of_entry heff hp
      have hlt := h.ticket_lt_of_launch hl
      omega
  · exact heff.unqueued l (Option.mem_toList.1 hl) p hp

theorem launched_append (h : Books entries d) (heff : Effect now d ev d') :
    ∀ l ∈ d'.launches, ∃ p ∈ entries ++ ev.entry?.toList,
      p.ticket = l.attempt.ticket ∧ p.task = l.task := by
  intro l hl
  rw [heff.launches] at hl
  rcases List.mem_append.1 hl with hl | hl
  · obtain ⟨p, hp, he⟩ := h.launched l hl
    exact ⟨p, List.mem_append_left _ hp, he⟩
  · obtain rfl := Event.eq_launched (Option.mem_toList.1 hl)
    obtain ⟨p, hp, -, handle, rfl⟩ := heff.guard
    exact ⟨p, List.mem_append_left _ (h.queued p hp), rfl, rfl⟩

theorem effect (h : Books entries d) (heff : Effect now d ev d') :
    Books (entries ++ ev.entry?.toList) d' where
  settled := h.settle heff
  nodup := h.nodup_append heff
  lt p hp := by
    rcases List.mem_append.1 hp with hp | hp
    · exact Nat.lt_of_lt_of_le (h.lt p hp) heff.fresh
    · exact heff.ticket p (Option.mem_toList.1 hp)
  queued p hp := by
    rcases heff.queue p hp with hp | hp
    · exact List.mem_append_left _ (h.queued p hp)
    · exact List.mem_append_right _ (Option.mem_toList.2 hp)
  once := h.once_append heff
  unqueued := h.unqueued_append heff
  launched := h.launched_append heff

theorem trace (h : Books entries d) (ht : Trace now d events d') :
    Books (entries ++ events.filterMap Event.entry?) d' := by
  induction ht generalizing entries with
  | nil d => simpa using h
  | @cons d d₁ d' ev events heff _ ih =>
    have hent : entries ++ (ev :: events).filterMap Event.entry? =
        entries ++ ev.entry?.toList ++ events.filterMap Event.entry? := by
      rw [List.filterMap_cons, List.append_assoc]
      cases ev.entry? <;> rfl
    rw [hent]
    exact ih (h.effect heff)

theorem takeUp (jobs : List Job) (processors : UInt64) (config : JobsConfig)
    (runners : Runners τ) : Books [] ((create processors config runners).takeUp jobs) := by
  obtain ⟨registry, detached, he⟩ := takeUp_eq jobs (create processors config runners)
  rw [he]
  refine ⟨⟨[], rfl, .refl _⟩, .nil, ?_, ?_, .nil, ?_, ?_⟩
  · intro p hp
    cases hp
  · intro p hp
    cases hp
  · intro l hl
    cases hl
  · intro l hl
    cases hl

end Books

theorem Run.books_of_load {ok : List (Step τ) → Dispatcher τ → Operation τ → Prop}
    (hok : ∀ past d s fs, ok past d (.load s fs) → past = []) (h : Run ok past d) :
    Books (entered past) d := by
  induction h with
  | start processors config runners => exact Books.takeUp [] processors config runners
  | @step past d now o hrun ho ih =>
    by_cases hload : ∃ s fs, o = .load s fs
    · obtain ⟨s, fs, rfl⟩ := hload
      obtain rfl := hok _ _ s fs ho
      obtain ⟨processors, config, runners, rfl⟩ := hrun.eq_create
      exact Books.takeUp (s.loadOrEmpty fs) processors config runners
    · have hload : ∀ s fs, o ≠ .load s fs := fun s fs he ↦ hload ⟨s, fs, he⟩
      obtain ⟨events, ht, -, hent⟩ := hrun.wellFormed.unfolds now hload
      have hb := ih.trace ht
      rw [hent] at hb
      exact hb.perm List.perm_append_comm

theorem Run.books (h : Run Proper past d) : Books (entered past) d :=
  h.books_of_load fun _ _ _ _ ho ↦ ho.1

/-- What a job ends with in an operation is in the registry when the operation is over: no job ends
twice in it. -/
theorem Trace.ended_registered (h : Trace now d events d') (hp : ∀ ev ∈ events, ev.Proceeds)
    (hn : d.active.Nodup) : ∀ x ∈ events.filterMap Event.ending?, x.2.finished = true ∧
      d'.registry.get? x.2.id = some x.2 := by
  induction h with
  | nil d => simp
  | @cons d d₁ d' ev events heff hrest ih =>
    obtain ⟨hev, hlater⟩ := List.forall_mem_cons.1 hp
    intro x hx
    obtain ⟨ev', hmem, hx'⟩ := List.mem_filterMap.1 hx
    rcases List.mem_cons.1 hmem with rfl | hmem
    · obtain rfl := Event.eq_settled hx'
      refine ⟨heff.guard.1, ?_⟩
      rw [(hrest.idle hlater (heff.ended_idle hn hx')).1, heff.registry_insert rfl,
        Registry.get?_insert_self]
    · exact ih hlater (heff.nodup_active hev hn) x (List.mem_filterMap.2 ⟨ev', hmem, hx'⟩)

theorem Run.notices_registered (h : Run Proper past d) (ho : Proper past d o) (now : Instant) :
    ∃ js, (d.perform now o).notices = d.notices ++ js ∧
      ∀ j ∈ js, j.finished = true ∧ (d.perform now o).registry.get? j.id = some j := by
  by_cases hload : ∃ s fs, o = .load s fs
  · obtain ⟨s, fs, rfl⟩ := hload
    obtain ⟨registry, detached, he⟩ := takeUp_eq (s.loadOrEmpty fs) d
    refine ⟨[], ?_, by simp⟩
    change (d.takeUp (s.loadOrEmpty fs)).notices = _
    rw [he, List.append_nil]
  · have hload : ∀ s fs, o ≠ .load s fs := fun s fs he ↦ hload ⟨s, fs, he⟩
    obtain ⟨events, ht, hc, -⟩ := h.wellFormed.unfolds now hload
    refine ⟨_, ht.notices, fun j hj ↦ ?_⟩
    obtain ⟨x, hx, rfl⟩ := List.mem_map.1 hj
    obtain ⟨ev, hev, hend⟩ := List.mem_filterMap.1 hx
    obtain rfl := Event.eq_settled hend
    have hn : d.active.Nodup := by simpa using h.accounted.nodup
    have hp : ∀ ev ∈ events, ev.Proceeds := fun ev' hev' ↦
      Operation.proceeds_of_settles (hc _ hev) (hc ev' hev')
    exact ht.ended_registered hp hn x hx

/-- Every accepted call enters one entry with a ticket of its own. Each entry has had one notice, of
its job, or is queued or running; so the calls for an id are as many as its notices, and one more
while it is active. No ticket is launched twice, and each with the task of its entry. The records in
the notices are those that were registered when the jobs ended. -/
theorem submissions_settled_once (h : Run Proper past d) :
    (∀ id, (submissions past).count id =
      (d.notices.map (·.id)).count id + if id ∈ d.active then 1 else 0) ∧
    ((entered past).map (·.job.id) = submissions past ∧
      ((entered past).map (·.ticket)).Nodup ∧
      ∃ endings : List (Nat × Job), d.notices = endings.map (·.2) ∧
        ((entered past).map fun p ↦ (p.ticket, p.job.id)).Perm
          (endings.map (fun x ↦ (x.1, x.2.id)) ++ d.underway)) ∧
    ((d.launches.map (·.attempt.ticket)).Nodup ∧
      ∀ l ∈ d.launches, ∃ p ∈ entered past, p.ticket = l.attempt.ticket ∧ p.task = l.task) ∧
    ∀ now o, Proper past d o → ∃ js, (d.perform now o).notices = d.notices ++ js ∧
      ∀ j ∈ js, j.finished = true ∧ (d.perform now o).registry.get? j.id = some j := by
  have hb := h.books
  refine ⟨fun id ↦ ?_, ⟨h.entered_ids, hb.nodup, hb.settled⟩, ⟨hb.once, hb.launched⟩,
    fun now o ho ↦ h.notices_registered ho now⟩
  obtain ⟨endings, hn, hp⟩ := hb.settled
  have hids := (hp.map Prod.snd).count_eq id
  have hactive : d.active.Nodup := by simpa using h.accounted.nodup
  rw [List.map_append, List.count_append, underway_ids, List.map_map, List.map_map,
    hactive.count] at hids
  rw [← h.entered_ids, hn, List.map_map]
  exact hids

theorem submissions_settled_once_sample :
    submissions sample.1 = ["second", "first"] ∧ sample.2.notices.map (·.id) = ["first"] ∧
    (submissions sample.1).count "second" =
      (sample.2.notices.map (·.id)).count "second" +
        (if "second" ∈ sample.2.active then 1 else 0) :=
  ⟨by decide +kernel, by decide +kernel, (submissions_settled_once sample_run).1 "second"⟩

end JobEngine.Dispatcher
