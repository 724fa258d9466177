import JobEngine.Proofs.Dispatcher.Accounting
import JobEngine.Proofs.Dispatcher.Slots

namespace JobEngine.Dispatcher

variable {τ : Type} {d : Dispatcher τ} {now : Instant} {j t : Job} {id : String} {a : Attempt}
  {o : Operation τ} {steps : List (Instant × Operation τ)}

/-- Whether an operation is something that a running task does. -/
def Operation.Reacts : Operation τ → Prop
  | .report _ _ | .taskOver _ _ => True
  | _ => False

/-- The record that an attempt ends with in the course of some steps: the first finished one that
it reports of its job, or the last one as failed if its task is over before that. -/
def ending? (a : Attempt) : List (Instant × Operation τ) → Option Job
  | [] => none
  | (_, .report ticket j) :: steps =>
    if ticket = a.ticket ∧ j.id = a.id then
      if j.finished then some j else ending? { a with last := j } steps
    else ending? a steps
  | (now, .taskOver ticket panicked) :: steps =>
    if ticket = a.ticket then
      some (a.last.fail now (if panicked then Text.taskPanicked else Text.noCompletionReported))
    else ending? a steps
  | _ :: steps => ending? a steps

theorem execute_cons (d : Dispatcher τ) (x : Instant × Operation τ)
    (steps : List (Instant × Operation τ)) :
    d.execute (x :: steps) = (d.perform x.1 x.2).execute steps := rfl

theorem Accounted.react (h : d.Accounted []) (hw : d.WellFormed) (now : Instant)
    (ho : o.Reacts) : (d.perform now o).Accounted [] := by
  refine h.perform hw now o ?_
  cases o with
  | report ticket j => trivial
  | taskOver ticket panicked => trivial
  | _ => exact absurd ho not_false

theorem Accounted.ended (h : d.Accounted []) (hw : d.WellFormed) (ha : a ∈ d.attempts)
    (hj : j.id = a.id) :
    (d.endAttempt a j).registry.get? a.id = some j ∧ a.id ∉ (d.endAttempt a j).runningIds := by
  constructor
  · rw [← hj]
    exact Registry.get?_insert_self d.registry j
  · obtain ⟨xs, ys, he, hf⟩ := hw.attempts_filter ha
    have hn := h.nodup
    rw [List.append_nil, active, List.nodup_append, runningIds, he, List.map_append,
      List.map_cons, List.nodup_middle, List.nodup_cons] at hn
    have hr : (d.endAttempt a j).runningIds = (xs ++ ys).map (·.id) := by
      rw [← hf]
      rfl
    rw [hr, List.map_append]
    exact hn.2.1.1

theorem WellFormed.react_of_not_running (h : d.WellFormed) (now : Instant) (ho : o.Reacts)
    (hi : id ∉ d.runningIds) :
    (d.perform now o).registry.get? id = d.registry.get? id ∧
      id ∉ (d.perform now o).runningIds := by
  have hne (a : Attempt) (ha : a ∈ d.attempts) : id ≠ a.id := by
    rintro rfl
    exact hi (List.mem_map_of_mem ha)
  have hend (a : Attempt) (ha : a ∈ d.attempts) (j : Job) (hj : j.id = a.id) :
      (d.endAttempt a j).registry.get? id = d.registry.get? id ∧
        id ∉ (d.endAttempt a j).runningIds := by
    refine ⟨Registry.get?_insert_of_ne (hj ▸ hne a ha), fun hm ↦ ?_⟩
    obtain ⟨x, hx, rfl⟩ := List.mem_map.1 hm
    exact hne x (List.mem_of_mem_filter hx) rfl
  cases o with
  | report ticket j =>
    change (d.report ticket j).registry.get? id = _ ∧ id ∉ (d.report ticket j).runningIds
    rcases report_cases d ticket j with he | ⟨a, ha, -, hj, ⟨-, he⟩ | ⟨-, he⟩⟩
    · rw [he]
      exact ⟨rfl, hi⟩
    · rw [he]
      exact hend a ha j hj
    · rw [he]
      refine ⟨Registry.get?_insert_of_ne (hj ▸ hne a ha), fun hm ↦ ?_⟩
      obtain ⟨x, hx, rfl⟩ := List.mem_map.1 hm
      obtain ⟨y, hy, rfl⟩ := List.mem_map.1 hx
      apply hne y hy
      split <;> rfl
  | taskOver ticket panicked =>
    change (d.taskOver now ticket panicked).registry.get? id = _ ∧
      id ∉ (d.taskOver now ticket panicked).runningIds
    rcases taskOver_cases d now ticket panicked with he | ⟨a, ha, error, he⟩
    · rw [he]
      exact ⟨rfl, hi⟩
    · rw [he]
      exact hend a ha _ (h.last_id a ha)
  | _ => exact absurd ho not_false

theorem WellFormed.execute_of_not_running (h : d.WellFormed) (hr : ∀ x ∈ steps, x.2.Reacts)
    (hi : id ∉ d.runningIds) : (d.execute steps).registry.get? id = d.registry.get? id := by
  induction steps generalizing d with
  | nil => rfl
  | cons x steps ih =>
    obtain ⟨hrec, hrun⟩ := h.react_of_not_running x.1 (hr x List.mem_cons_self) hi
    rw [execute_cons, ih (h.perform x.1 x.2) (fun y hy ↦ hr y (List.mem_cons_of_mem _ hy)) hrun,
      hrec]

/-- A reaction ends an attempt, or the attempt goes on with the record that it reported last. The
other steps decide then. -/
theorem Accounted.react_cases (h : d.Accounted []) (hw : d.WellFormed) (ha : a ∈ d.attempts)
    (now : Instant) (ho : o.Reacts) (steps : List (Instant × Operation τ)) :
    (∃ t, ending? a ((now, o) :: steps) = some t ∧ t.finished = true ∧
      (d.perform now o).registry.get? a.id = some t ∧ a.id ∉ (d.perform now o).runningIds) ∨
    ∃ a' ∈ (d.perform now o).attempts, a'.id = a.id ∧
      ending? a ((now, o) :: steps) = ending? a' steps := by
  have hfind := hw.attempt?_eq ha
  have hstays (b : Attempt) (hne : a.ticket ≠ b.ticket) (j : Job) :
      a ∈ (d.endAttempt b j).attempts := List.mem_filter.2 ⟨ha, by simpa using hne⟩
  cases o with
  | report ticket j =>
    by_cases hown : ticket = a.ticket ∧ j.id = a.id
    · obtain ⟨rfl, hj⟩ := hown
      cases hf : j.finished with
      | true =>
        have he : d.report a.ticket j = d.endAttempt a j := by
          simp [Dispatcher.report, hfind, hj, hf]
        refine .inl ⟨j, by simp [ending?, hj, hf], hf, ?_⟩
        rw [Dispatcher.perform, he]
        exact h.ended hw ha hj
      | false =>
        have he : d.report a.ticket j =
            { d with registry := d.registry.insert j }.noteLast a.ticket j := by
          simp [Dispatcher.report, hfind, hj, hf]
        refine .inr ⟨{ a with last := j }, ?_, rfl, by simp [ending?, hj, hf]⟩
        rw [Dispatcher.perform, he]
        exact List.mem_map.2 ⟨a, ha, by simp⟩
    · refine .inr ⟨a, ?_, rfl, by simp [ending?, hown]⟩
      have hne (b : Attempt) (hb : b ∈ d.attempts) (ht : b.ticket = ticket) (hj : j.id = b.id) :
          a.ticket ≠ b.ticket := by
        intro he
        obtain rfl := hw.eq_of_ticket_eq ha hb he
        exact hown ⟨ht.symm, hj⟩
      change a ∈ (d.report ticket j).attempts
      rcases report_cases d ticket j with he | ⟨b, hb, ht, hj, ⟨-, he⟩ | ⟨-, he⟩⟩
      · rw [he]
        exact ha
      · rw [he]
        exact hstays b (hne b hb ht hj) j
      · rw [he]
        exact List.mem_map.2 ⟨a, ha, if_neg (ht ▸ hne b hb ht hj)⟩
  | taskOver ticket panicked =>
    by_cases hown : ticket = a.ticket
    · subst hown
      refine .inl ⟨a.last.fail now (if panicked then Text.taskPanicked else
        Text.noCompletionReported), by simp [ending?], rfl, ?_⟩
      simp only [Dispatcher.perform, Dispatcher.taskOver, hfind]
      exact h.ended hw ha (hw.last_id a ha)
    · refine .inr ⟨a, ?_, rfl, by simp [ending?, hown]⟩
      simp only [Dispatcher.perform, Dispatcher.taskOver]
      cases hb : d.attempt? ticket with
      | none => exact ha
      | some b =>
        obtain ⟨-, rfl⟩ := attempt?_eq_some hb
        exact hstays b (Ne.symm hown) _
  | _ => exact absurd ho not_false

theorem Accounted.execute_running (h : d.Accounted []) (hw : d.WellFormed) (ha : a ∈ d.attempts)
    (hr : ∀ x ∈ steps, x.2.Reacts) :
    (∃ t, ending? a steps = some t ∧ t.finished = true ∧
      (d.execute steps).registry.get? a.id = some t) ∨
    ending? a steps = none ∧
      ∃ j, (d.execute steps).registry.get? a.id = some j ∧ j.finished = false := by
  induction steps generalizing d a with
  | nil =>
    refine .inr ⟨rfl, (h.unfinished_iff a.id).2 ?_⟩
    exact List.mem_append_left _ (List.mem_append_right _ (List.mem_map_of_mem ha))
  | cons x steps ih =>
    have ho := hr x List.mem_cons_self
    have hr : ∀ y ∈ steps, y.2.Reacts := fun y hy ↦ hr y (List.mem_cons_of_mem _ hy)
    have hw' := hw.perform x.1 x.2
    rw [execute_cons]
    rcases h.react_cases hw ha x.1 ho steps with ⟨t, ht, hf, hrec, hn⟩ | ⟨a', ha', hid, he⟩
    · exact .inl ⟨t, ht, hf, (hw'.execute_of_not_running hr hn).trans hrec⟩
    · rw [he, ← hid]
      exact ih (h.react hw x.1 ho) hw' ha' hr

end JobEngine.Dispatcher
