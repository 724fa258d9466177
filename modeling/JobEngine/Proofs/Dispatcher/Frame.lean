import JobEngine.Proofs.Dispatcher.Accounting
import JobEngine.Proofs.Dispatcher.Snapshot

namespace JobEngine.Dispatcher

variable {τ : Type} {d d' e : Dispatcher τ} {now : Instant} {j : Job} {id : String}
  {o : Operation τ} {s : Step τ} {past later earlier : List (Step τ)}

def Step.restarts (s : Step τ) (id : String) : Bool :=
  match s.operation with
  | .restart j => j.id = id && (s.before.restart s.now j).1.isOk
  | _ => false

/-- Whether a step may bring in a job, or give it an attempt. -/
def Step.Engages (s : Step τ) (id : String) : Prop :=
  match s.operation with
  | .load _ _ => True
  | .enqueue _ j | .enqueueAfter _ j _ => j.id = id
  | .restart _ => s.restarts id = true
  | .resume => (s.before.detached.get? id).isSome = true
  | _ => False

/-- A job without a handle has none later, and its record is the same or gone. -/
structure Spares (id : String) (d d' : Dispatcher τ) : Prop where
  handle : d.handles.lookup id = none → d'.handles.lookup id = none
  record : d.handles.lookup id = none →
    d'.registry.get? id = d.registry.get? id ∨ d'.registry.get? id = none

namespace Spares

theorem refl (id : String) (d : Dispatcher τ) : Spares id d d := ⟨fun h ↦ h, fun _ ↦ .inl rfl⟩

theorem trans (h : Spares id d d') (h' : Spares id d' e) : Spares id d e where
  handle hn := h'.handle (h.handle hn)
  record hn := by
    rcases h'.record (h.handle hn) with he | he
    · rw [he]
      exact h.record hn
    · exact .inr he

theorem of_eq (hh : d'.handles = d.handles) (hr : d'.registry = d.registry) : Spares id d d' := by
  refine ⟨fun hn ↦ ?_, fun _ ↦ .inl ?_⟩
  · rw [hh, hn]
  · rw [hr]

theorem of_isSome (h : (d.handles.lookup id).isSome = true) (d' : Dispatcher τ) :
    Spares id d d' := by
  have hne : ¬ d.handles.lookup id = none := Option.isSome_iff_ne_none.1 h
  exact ⟨fun hn ↦ absurd hn hne, fun hn ↦ absurd hn hne⟩

theorem insert (hi : id ≠ j.id) : Spares id d { d with registry := d.registry.insert j } :=
  ⟨fun hn ↦ hn, fun _ ↦ .inl (Registry.get?_insert_of_ne hi)⟩

theorem finalize (hi : id ≠ j.id) : Spares id d (d.finalize j) := by
  refine ⟨fun hn ↦ ?_, fun _ ↦ .inl (Registry.get?_insert_of_ne hi)⟩
  exact (Lookup.lookup_filter_ne j.id id d.handles).trans (by rw [if_neg hi, hn])

theorem forget (d : Dispatcher τ) (id id' : String) : Spares id d (d.forget id') := by
  refine ⟨fun hn ↦ hn, fun _ ↦ ?_⟩
  simp only [Dispatcher.forget, Registry.get?_erase]
  split
  · exact .inr rfl
  · exact .inl rfl

theorem handleFor (hi : id ≠ j.id) : Spares id d (d.handleFor j.id).2 := by
  rcases handleFor_cases d j.id with ⟨n, -, he⟩ | ⟨-, he⟩
  · rw [he]
    exact refl id d
  · rw [he]
    refine ⟨fun hn ↦ ?_, fun _ ↦ .inl rfl⟩
    rw [Lookup.lookup_cons, if_neg hi, hn]

theorem enqueue (hi : id ≠ j.id) (task : τ) : Spares id d (d.enqueue task j) :=
  ((handleFor hi).trans (insert hi)).trans (of_eq rfl rfl)

theorem enqueueAfter (hw : d.WellFormed) (hi : id ≠ j.id) (now : Instant) (task : τ)
    (parent : String) : Spares id d (d.enqueueAfter now task j parent).2 := by
  rcases enqueueAfter_cases hw.deps now task j parent with ⟨c, he⟩ | ⟨p, -, -, he⟩
  · rw [he]
    exact refl id d
  · rw [he]
    exact (enqueue hi task).trans (of_eq rfl rfl)

theorem restart (hw : d.WellFormed) (h : id = j.id → (d.restart now j).1.isOk = false) :
    Spares id d (d.restart now j).2 := by
  rcases restart_cases d now j with ⟨c, he⟩ | ⟨task, current, hc, -, -, -, he⟩
  · rw [he]
    exact refl id d
  · have hi : id ≠ j.id := by
      intro hi
      have hok := h hi
      rw [he] at hok
      cases hok
    have hid : (current.again now).id = j.id := by
      rw [hc]
      exact hw.current_id j
    rw [he]
    have hd : Spares id d { d with detached := d.detached.erase current.id } := of_eq rfl rfl
    exact (hd.trans (enqueue (hid ▸ hi) task)).trans (of_eq rfl rfl)

theorem look {b : Bool} (ha : d.Accounted []) (hw : d.WellFormed)
    (hl : d.look now = some (d', b)) : Spares id d d' := by
  obtain ⟨p, queue, n, -, -, hn, hl⟩ := ha.looked_of_look hw hl
  by_cases hi : id = p.job.id
  · exact of_isSome (by rw [hi, hn]; rfl) d'
  · have hq : Spares id d { d with queue } := of_eq rfl rfl
    cases hl with
    | cancelled => exact hq.trans (finalize (j := p.job.fail now _) hi)
    | launched => exact (insert (j := p.job.touch now) hi).trans (of_eq rfl rfl)
    | postponed => exact of_eq rfl rfl
    | skipped => exact hq.trans (finalize (j := p.job.fail now _) hi)

theorem dispatchReady (ha : d.Accounted []) (hw : d.WellFormed) (now : Instant) :
    Spares id d (d.dispatchReady now) := by
  have hlook (e e' : Dispatcher τ) (b : Bool)
      (h : (e.Accounted [] ∧ e.WellFormed) ∧ Spares id d e) (hl : e.look now = some (e', b)) :
      (e'.Accounted [] ∧ e'.WellFormed) ∧ Spares id d e' := by
    obtain ⟨⟨ha, hw⟩, hs⟩ := h
    exact ⟨⟨ha.look hw hl, hw.look hl⟩, hs.trans (look ha hw hl)⟩
  have hl := lookAll_induction hlook d.queue.size ⟨⟨ha, hw⟩, refl id d⟩ false
  rcases dispatchReady_cases d now with he | he
  · rw [he]
    exact hl.2
  · rw [he]
    exact hl.2.trans (of_eq rfl rfl)

theorem attempt (ha : d.Accounted []) {a : Attempt} (hm : a ∈ d.attempts)
    (h : id ≠ a.id → Spares id d d') : Spares id d d' := by
  by_cases hi : id = a.id
  · have hs : (d.handles.lookup id).isSome = true := by
      rw [ha.handle_iff]
      exact List.mem_append_left _ (List.mem_append_right _ (hi ▸ List.mem_map_of_mem hm))
    exact of_isSome hs d'
  · exact h hi

theorem endAttempt {a : Attempt} (hi : id ≠ j.id) : Spares id d (d.endAttempt a j) :=
  (of_eq rfl rfl).trans ((finalize hi).trans (of_eq rfl rfl))

theorem report (ha : d.Accounted []) (ticket : Nat) (j : Job) :
    Spares id d (d.report ticket j) := by
  rcases report_cases d ticket j with he | ⟨a, hm, -, hj, ⟨-, he⟩ | ⟨-, he⟩⟩
  · rw [he]
    exact refl id d
  · rw [he]
    exact attempt ha hm fun hi ↦ endAttempt (hj ▸ hi)
  · rw [he]
    exact attempt ha hm fun hi ↦ (insert (hj ▸ hi)).trans (of_eq rfl rfl)

theorem taskOver (ha : d.Accounted []) (hw : d.WellFormed) (now : Instant) (ticket : Nat)
    (panicked : Bool) : Spares id d (d.taskOver now ticket panicked) := by
  rcases taskOver_cases d now ticket panicked with he | ⟨a, hm, error, he⟩
  · rw [he]
    exact refl id d
  · rw [he]
    exact attempt ha hm fun hi ↦ endAttempt (j := a.last.fail now error) (hw.last_id a hm ▸ hi)

theorem handleStop (hw : d.WellFormed) (now : Instant) (id' : String) :
    Spares id d (d.handleStop now id') := by
  rcases handleStop_cases d now id' with ⟨-, he⟩ | ⟨n, hn, ⟨-, he⟩ | ⟨p, queue, hr, he⟩⟩
  · rw [he]
    exact refl id d
  · rw [he]
    exact of_eq rfl rfl
  · obtain ⟨-, hp, -⟩ := hw.queue.remove_eq_some hr
    have hp : p.job.id = id' := by simpa using hp
    rw [he]
    by_cases hi : id = p.job.id
    · exact of_isSome (by rw [hi, hp, hn]; rfl) _
    · have hq : Spares id d { d with cancelled := n :: d.cancelled, wakeup := true, queue } :=
        of_eq rfl rfl
      exact hq.trans (finalize (j := p.job.fail now _) hi)

theorem resume (hw : d.WellFormed) (hd : d.detached.get? id = none) (now : Instant) :
    Spares id d (d.resume now).2 := by
  apply hw.resume_others (motive := Spares id d) hd
  · intro e j hw hs hi
    exact hs.trans (restart hw fun he ↦ absurd he hi)
  · intro e j error hs hi
    exact hs.trans ((insert (j := j.fail now error) hi).trans (of_eq rfl rfl))
  · exact refl id d

theorem clearIfFinished (d : Dispatcher τ) (id id' : String) :
    Spares id d (d.clearIfFinished id').2 := by
  rcases clearIfFinished_cases d id' with he | ⟨j, -, -, he⟩
  · rw [he]
    exact refl id d
  · rw [he]
    exact forget d id id'

theorem pruneBefore (d : Dispatcher τ) (id : String) (cutoff : Instant) :
    Spares id d (d.pruneBefore cutoff).2 :=
  pruneBefore_induction cutoff (fun e j _ h ↦ h.trans (forget e id j.id)) (refl id d)

end Spares

theorem Accounted.spares (ha : d.Accounted []) (hw : d.WellFormed) (now : Instant)
    (o : Operation τ) (ho : ¬ Step.Engages ⟨d, now, o⟩ id) : Spares id d (d.perform now o) := by
  cases o with
  | load s fs => exact absurd trivial ho
  | enqueue task j => exact .enqueue (Ne.symm ho) task
  | enqueueAfter task j parent => exact .enqueueAfter hw (Ne.symm ho) now task parent
  | dispatchReady => exact .dispatchReady ha hw now
  | report ticket j => exact .report ha ticket j
  | taskOver ticket panicked => exact .taskOver ha hw now ticket panicked
  | handleStop id' => exact .handleStop hw now id'
  | restart j =>
    refine .restart hw fun hi ↦ ?_
    simpa [Step.Engages, Step.restarts, hi] using ho
  | resume => exact .resume hw (by simpa [Step.Engages] using ho) now
  | clearIfFinished id' => exact .clearIfFinished d id id'
  | prune age =>
    rcases prune_cases d now age with he | ⟨cutoff, he⟩
    · rw [he]
      exact .refl id d
    · rw [he]
      exact .pruneBefore d id cutoff
  | delayNext =>
    obtain ⟨queue, he⟩ := delayNext_eq d
    change Spares id d d.delayNext.2
    rw [he]
    exact .of_eq rfl rfl

def Undetaches (d d' : Dispatcher τ) : Prop :=
  ∀ id j, d'.detached.get? id = some j → d.detached.get? id = some j

namespace Undetaches

theorem of_eq (h : d'.detached = d.detached) : Undetaches d d' := by
  intro id j hj
  rwa [h] at hj

theorem trans (h : Undetaches d d') (h' : Undetaches d' e) : Undetaches d e :=
  fun id j hj ↦ h id j (h' id j hj)

theorem erase (d : Dispatcher τ) (id : String) :
    Undetaches d { d with detached := d.detached.erase id } := by
  intro id' j hj
  rw [Registry.get?_erase] at hj
  split at hj
  · cases hj
  · exact hj

theorem handleFor (d : Dispatcher τ) (id : String) : Undetaches d (d.handleFor id).2 := by
  rcases handleFor_cases d id with ⟨n, -, he⟩ | ⟨-, he⟩
  · exact of_eq (by rw [he])
  · exact of_eq (by rw [he])

theorem enqueue (d : Dispatcher τ) (task : τ) (j : Job) : Undetaches d (d.enqueue task j) :=
  (handleFor d j.id).trans (of_eq rfl)

theorem restart (d : Dispatcher τ) (now : Instant) (j : Job) :
    Undetaches d (d.restart now j).2 := by
  rcases restart_cases d now j with ⟨c, he⟩ | ⟨task, current, -, -, -, -, he⟩
  · exact of_eq (by rw [he])
  · rw [he]
    exact ((erase d current.id).trans (enqueue _ task _)).trans (of_eq rfl)

theorem look {b : Bool} (hl : d.look now = some (d', b)) : Undetaches d d' := by
  obtain ⟨p, queue, -, -, hl⟩ := look_cases hl
  have he := handleFor d p.job.id
  generalize (d.handleFor p.job.id).2 = e at *
  cases hl with
  | cancelled => exact he.trans (of_eq rfl)
  | launched => exact he.trans (of_eq rfl)
  | postponed => exact he.trans (of_eq rfl)
  | skipped => exact he.trans (of_eq rfl)

theorem dispatchReady (d : Dispatcher τ) (now : Instant) : Undetaches d (d.dispatchReady now) := by
  have hlook (e e' : Dispatcher τ) (b : Bool) (h : Undetaches d e)
      (hl : e.look now = some (e', b)) : Undetaches d e' := h.trans (look hl)
  have hl := lookAll_induction hlook d.queue.size (of_eq rfl) false
  rcases dispatchReady_cases d now with he | he
  · rw [he]
    exact hl
  · rw [he]
    exact hl.trans (of_eq rfl)

theorem perform (hw : d.WellFormed) (now : Instant) (ho : ∀ s fs, o ≠ .load s fs) :
    Undetaches d (d.perform now o) := by
  cases o with
  | load s fs => exact absurd rfl (ho s fs)
  | enqueue task j => exact enqueue d task j
  | enqueueAfter task j parent =>
    change Undetaches d (d.enqueueAfter now task j parent).2
    rcases enqueueAfter_cases hw.deps now task j parent with ⟨c, he⟩ | ⟨p, -, -, he⟩
    · exact of_eq (by rw [he])
    · rw [he]
      exact (enqueue d task j).trans (of_eq rfl)
  | dispatchReady => exact dispatchReady d now
  | report ticket j =>
    change Undetaches d (d.report ticket j)
    rcases report_cases d ticket j with he | ⟨a, -, -, -, ⟨-, he⟩ | ⟨-, he⟩⟩
    · exact of_eq (by rw [he])
    · exact of_eq (by rw [he]; rfl)
    · exact of_eq (by rw [he]; rfl)
  | taskOver ticket panicked =>
    change Undetaches d (d.taskOver now ticket panicked)
    rcases taskOver_cases d now ticket panicked with he | ⟨a, -, error, he⟩
    · exact of_eq (by rw [he])
    · exact of_eq (by rw [he]; rfl)
  | handleStop id =>
    change Undetaches d (d.handleStop now id)
    rcases handleStop_cases d now id with ⟨-, he⟩ | ⟨n, -, ⟨-, he⟩ | ⟨p, queue, -, he⟩⟩
    · exact of_eq (by rw [he])
    · exact of_eq (by rw [he])
    · exact of_eq (by rw [he]; rfl)
  | restart j => exact restart d now j
  | resume =>
    apply hw.resume_keeps (motive := Undetaches d)
    · exact fun e j _ h ↦ h.trans (restart e now j)
    · exact fun e j error _ h _ ↦ (h.trans (erase e j.id)).trans (of_eq rfl)
    · exact of_eq rfl
  | clearIfFinished id =>
    change Undetaches d (d.clearIfFinished id).2
    rcases clearIfFinished_cases d id with he | ⟨j, -, -, he⟩
    · exact of_eq (by rw [he])
    · exact of_eq (by rw [he]; rfl)
  | prune age =>
    rcases prune_cases d now age with he | ⟨cutoff, he⟩
    · exact of_eq (by rw [he])
    · rw [he]
      exact pruneBefore_induction cutoff (fun e j _ h ↦ h.trans (of_eq rfl)) (of_eq rfl)
  | delayNext =>
    obtain ⟨queue, he⟩ := delayNext_eq d
    change Undetaches d d.delayNext.2
    exact of_eq (by rw [he])

end Undetaches

theorem Run.detached_unfinished {ok : List (Step τ) → Dispatcher τ → Operation τ → Prop}
    (h : Run ok past d) (hj : d.detached.get? id = some j) : j.finished = false := by
  induction h generalizing id j with
  | start processors config runners => cases hj
  | @step past d now o hrun _ ih =>
    by_cases ho : ∃ s fs, o = .load s fs
    · obtain ⟨s, fs, rfl⟩ := ho
      exact unfinished_takeUp (fun _ hj ↦ ih hj) _ hj
    · exact ih (Undetaches.perform hrun.wellFormed now (fun s fs he ↦ ho ⟨s, fs, he⟩) _ _ hj)

theorem Used.not_engages (h : Used past d id) (ho : Proper past d o)
    (hload : ∀ s fs, o ≠ .load s fs) (hd : d.detached.get? id = none)
    (hr : Step.restarts ⟨d, now, o⟩ id = false) : ¬ Step.Engages ⟨d, now, o⟩ id := by
  cases o with
  | load s fs => exact absurd rfl (hload s fs)
  | enqueue task j =>
    rintro rfl
    exact ho.2 h
  | enqueueAfter task j parent =>
    rintro rfl
    exact ho.2 h
  | restart j => simpa [Step.Engages] using hr
  | resume => simp [Step.Engages, hd]
  | dispatchReady | report | taskOver | handleStop | clearIfFinished | prune | delayNext =>
    exact not_false

/-- A job that was known once and then is neither active nor detached stays so until a restart. -/
theorem Run.stays_idle {b : Dispatcher τ} {at' : Instant}
    (h : Run Proper (later ++ ⟨b, at', o⟩ :: earlier) d) (hk : Used earlier b id)
    (hi : (b.perform at' o).handles.lookup id = none ∧ (b.perform at' o).detached.get? id = none)
    (hr : ∀ s ∈ later, s.restarts id = false) :
    d.handles.lookup id = none ∧ d.detached.get? id = none := by
  induction later generalizing d with
  | nil =>
    cases h
    exact hi
  | cons s later ih =>
    cases h with
    | @step _ e now o' hrun ho =>
      obtain ⟨hl, hd⟩ := ih hrun fun s hs ↦ hr s (List.mem_cons_of_mem _ hs)
      have hused : Used (later ++ ⟨b, at', o⟩ :: earlier) e id := by
        right
        rcases hk with hk | ⟨s, hs, hk⟩
        · exact ⟨_, List.mem_append_right _ List.mem_cons_self, hk⟩
        · exact ⟨s, List.mem_append_right _ (List.mem_cons_of_mem _ hs), hk⟩
      have hload : ∀ s fs, o' ≠ .load s fs := by
        rintro s fs rfl
        simpa using ho.1
      have hengage : ¬ Step.Engages ⟨e, now, o'⟩ id :=
        hused.not_engages ho hload hd (hr _ List.mem_cons_self)
      refine ⟨(hrun.accounted.spares hrun.wellFormed now o' hengage).handle hl, ?_⟩
      refine Option.eq_none_iff_forall_ne_some.2 fun j hj ↦ ?_
      have hj := Undetaches.perform hrun.wellFormed now hload id j hj
      rw [hd] at hj
      cases hj

end JobEngine.Dispatcher
