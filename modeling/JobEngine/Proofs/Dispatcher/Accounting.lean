import JobEngine.Proofs.Dispatcher.WellFormed

namespace JobEngine.Dispatcher

variable {τ : Type} {d d' : Dispatcher τ} {held held' : List String} {now : Instant} {b : Bool}
  {j : Job} {id : String}

def queued (d : Dispatcher τ) : List String := d.queue.toList.map (·.job.id)

def runningIds (d : Dispatcher τ) : List String := d.attempts.map (·.id)

def active (d : Dispatcher τ) : List String := d.queued ++ d.runningIds

def Unfinished (d : Dispatcher τ) (id : String) : Prop :=
  ∃ j, d.registry.get? id = some j ∧ j.finished = false

/-- The books are right if one counts the ids an operation has in its hands. -/
structure Accounted (d : Dispatcher τ) (held : List String) : Prop where
  nodup : (d.active ++ held).Nodup
  handle_iff : ∀ id, (d.handles.lookup id).isSome = true ↔ id ∈ d.active ++ held
  unfinished_iff : ∀ id, d.Unfinished id ↔ id ∈ d.active ++ held
  pending : ∀ p ∈ d.queue.toList, p.job.finished = false
  entries : ∀ x ∈ d.deps.entries, (d.registry.get? x.1).isSome = true
  detached : ∀ id, (d.detached.get? id).isSome = true → d.registry.get? id = none

theorem accounted_create (processors : UInt64) (config : JobsConfig) (runners : Runners τ) :
    (create processors config runners).Accounted [] where
  nodup := .nil
  handle_iff id := by simp [create, active, queued, runningIds]
  unfinished_iff id := by simp [create, Unfinished, active, queued, runningIds]
  pending := by simp [create]
  entries := by simp [create]
  detached := by simp [create]

theorem unfinished_insert (r : Registry) (hf : j.finished = false) :
    { d with registry := r.insert j }.Unfinished id ↔
      id = j.id ∨ { d with registry := r }.Unfinished id := by
  simp only [Unfinished, Registry.get?_insert]
  by_cases h : id = j.id
  · simp [h, hf]
  · simp [h]

theorem not_unfinished (hj : d.registry.get? id = some j) (hf : j.finished = true) :
    ¬ d.Unfinished id := by
  rintro ⟨k, hk, hkf⟩
  rw [hj, Option.some.injEq] at hk
  rw [← hk, hf] at hkf
  cases hkf

theorem isSome_get?_insert {r : Registry} (h : (r.get? id).isSome = true) (j : Job) :
    ((r.insert j).get? id).isSome = true := by
  rw [Registry.get?_insert]
  split
  · rfl
  · exact h

/-- An operation brings in unfinished jobs with unknown ids, or the jobs of a state file while there
are no others. -/
def Fits (d : Dispatcher τ) : Operation τ → Prop
  | .load s fs => (∀ id, ¬ d.Knows id) ∧ ((s.loadOrEmpty fs).map (·.id)).Nodup
  | .enqueue _ j | .enqueueAfter _ j _ => j.finished = false ∧ ¬ d.Knows j.id
  | _ => True

theorem Proper.fits {past : List (Step τ)} {o : Operation τ} (h : Proper past d o)
    (hempty : past = [] → ∀ id, ¬ d.Knows id) : d.Fits o := by
  cases o with
  | load s fs => exact ⟨hempty h.1, h.2⟩
  | enqueue task j => exact ⟨h.1, fun hk ↦ h.2 (.inl hk)⟩
  | enqueueAfter task j parent => exact ⟨h.1, fun hk ↦ h.2 (.inl hk)⟩
  | dispatchReady | report | taskOver | handleStop | restart | resume | clearIfFinished | prune
  | delayNext => trivial

theorem get?_of_not_knows (h : ¬ d.Knows id) :
    d.registry.get? id = none ∧ d.detached.get? id = none := by
  simpa [Knows, Registry.contains] using h

theorem not_knows_create (processors : UInt64) (config : JobsConfig) (runners : Runners τ)
    (id : String) : ¬ (create processors config runners).Knows id := by
  simp [Knows, Registry.contains, create]

namespace Accounted

theorem not_mem_of_detached (h : d.Accounted held) (hi : (d.detached.get? id).isSome = true) :
    id ∉ d.active ++ held := by
  intro hm
  obtain ⟨j, hj, -⟩ := (h.unfinished_iff id).2 hm
  rw [h.detached id hi] at hj
  cases hj

theorem get?_insert_of_detached (h : d.Accounted held) (hj : d.detached.get? j.id = none)
    (hi : (d.detached.get? id).isSome = true) : (d.registry.insert j).get? id = none := by
  rw [Registry.get?_insert, if_neg]
  · exact h.detached id hi
  · rintro rfl
    rw [hj] at hi
    cases hi

theorem detached_eq_none (h : d.Accounted held) (hm : id ∈ d.active ++ held) :
    d.detached.get? id = none :=
  Option.not_isSome_iff_eq_none.1 fun hi ↦ h.not_mem_of_detached hi hm

/-- Ids may pass between the queue, the attempts and the hands of an operation. -/
theorem move (h : d.Accounted held) (hp : (d'.active ++ held').Perm (d.active ++ held))
    (hq : ∀ p ∈ d'.queue.toList, p.job.finished = false) (hh : d'.handles = d.handles)
    (hr : d'.registry = d.registry) (hd : d'.deps = d.deps) (ht : d'.detached = d.detached) :
    d'.Accounted held' where
  nodup := hp.nodup_iff.2 h.nodup
  handle_iff id := by rw [hh, hp.mem_iff, h.handle_iff]
  unfinished_iff id := by
    rw [hp.mem_iff, ← h.unfinished_iff, Unfinished, hr]
    rfl
  pending := hq
  entries := by
    rw [hd, hr]
    exact h.entries
  detached := by
    rw [ht, hr]
    exact h.detached

theorem update (h : d.Accounted held) (hj : j.id ∈ d.active ++ held) (hf : j.finished = false) :
    { d with registry := d.registry.insert j }.Accounted held := by
  refine { h with
    unfinished_iff := fun id ↦ ?_
    entries := fun x hx ↦ ?_
    detached := fun id hi ↦ ?_ }
  · rw [unfinished_insert _ hf]
    constructor
    · rintro (rfl | hu)
      · exact hj
      · exact (h.unfinished_iff id).1 hu
    · exact fun hm ↦ .inr ((h.unfinished_iff id).2 hm)
  · exact isSome_get?_insert (h.entries x hx) j
  · exact h.get?_insert_of_detached (h.detached_eq_none hj) hi

theorem finish (h : d.Accounted (j.id :: held)) (hf : j.finished = true) :
    (d.finalize j).Accounted held := by
  have hn := List.nodup_middle.1 h.nodup
  obtain ⟨hj, hn⟩ := List.nodup_cons.1 hn
  have hmem : ∀ id, id ∈ d.active ++ j.id :: held ↔ id = j.id ∨ id ∈ d.active ++ held := fun id ↦ by
    simp only [List.mem_append, List.mem_cons]
    tauto
  refine ⟨hn, fun id ↦ ?_, fun id ↦ ?_, h.pending, fun x hx ↦ ?_, fun id hi ↦ ?_⟩
  · change ((d.handles.filter (·.1 ≠ j.id)).lookup id).isSome = true ↔ id ∈ d.active ++ held
    rw [Lookup.lookup_filter_ne]
    by_cases he : id = j.id
    · simp only [he, ↓reduceIte, Option.isSome_none, Bool.false_eq_true, false_iff]
      exact hj
    · rw [if_neg he, h.handle_iff, hmem]
      tauto
  · have hu : (d.finalize j).Unfinished id ↔ id ≠ j.id ∧ d.Unfinished id := by
      simp only [Unfinished, finalize, dropHandle, Registry.get?_insert]
      by_cases he : id = j.id
      · simp [he, hf]
      · simp [he]
    change _ ↔ id ∈ d.active ++ held
    rw [hu, h.unfinished_iff, hmem]
    constructor
    · tauto
    · exact fun hm ↦ ⟨fun he ↦ hj (he ▸ hm), .inr hm⟩
  · obtain ⟨y, hy, rfl⟩ := List.mem_map.1 hx
    exact isSome_get?_insert (h.entries y hy) j
  · exact h.get?_insert_of_detached (h.detached_eq_none ((hmem _).2 (.inl rfl))) hi

theorem registerFinished (h : d.Accounted held) (hf : j.finished = true)
    (hj : j.id ∉ d.active ++ held) (hd : d.detached.get? j.id = none) :
    { d with registry := d.registry.insert j }.Accounted held := by
  refine { h with
    unfinished_iff := fun id ↦ ?_
    entries := fun x hx ↦ ?_
    detached := fun id hi ↦ ?_ }
  · change _ ↔ id ∈ d.active ++ held
    rw [← h.unfinished_iff]
    simp only [Unfinished, Registry.get?_insert]
    by_cases he : id = j.id
    · subst he
      have hu := fun hu ↦ hj ((h.unfinished_iff j.id).1 hu)
      simpa [hf, Unfinished] using hu
    · simp [he]
  · exact isSome_get?_insert (h.entries x hx) j
  · exact h.get?_insert_of_detached hd hi

theorem setDetached (h : d.Accounted held) {r : Registry}
    (hr : ∀ id, (r.get? id).isSome = true → d.registry.get? id = none) :
    { d with detached := r }.Accounted held :=
  { h with detached := hr }

theorem eraseDetached (h : d.Accounted held) (id : String) :
    { d with detached := d.detached.erase id }.Accounted held :=
  h.setDetached fun id' hi ↦ by
    rw [Registry.get?_erase] at hi
    split at hi
    · cases hi
    · exact h.detached id' hi

theorem setDeps (h : d.Accounted held) {g : DependencyGraph}
    (hg : ∀ x ∈ g.entries, (d.registry.get? x.1).isSome = true) :
    { d with deps := g }.Accounted held :=
  { h with entries := hg }

theorem enqueue (h : d.Accounted []) (hv : d.queue.Valid) (task : τ) (hf : j.finished = false)
    (hl : d.handles.lookup j.id = none) (hd : d.detached.get? j.id = none) :
    (d.enqueue task j).Accounted [] := by
  have hj : j.id ∉ d.active ++ [] := by
    rw [← h.handle_iff, hl]
    simp
  have he : d.enqueue task j = { d with
      handles := (j.id, d.fresh) :: d.handles
      registry := d.registry.insert j
      queue := d.queue.enqueue ⟨d.fresh + 1, task, j⟩
      fresh := d.fresh + 1 + 1
      wakeup := true } := by
    simp only [Dispatcher.enqueue, handleFor, hl]
  obtain ⟨-, hq⟩ := hv.enqueue ⟨d.fresh + 1, task, j⟩
  have hp : ((d.enqueue task j).active ++ []).Perm (j.id :: (d.active ++ [])) := by
    simp only [he, active, queued, runningIds, hq, List.map_append, List.map_cons, List.map_nil,
      List.append_nil, List.append_assoc]
    exact List.perm_middle
  refine ⟨hp.nodup_iff.2 (List.nodup_cons.2 ⟨hj, h.nodup⟩), fun id ↦ ?_, fun id ↦ ?_, ?_, ?_, ?_⟩
  · rw [hp.mem_iff, List.mem_cons, ← h.handle_iff, he]
    by_cases hi : id = j.id <;> simp [Lookup.lookup_cons, hi]
  · rw [hp.mem_iff, List.mem_cons, ← h.unfinished_iff, he]
    exact unfinished_insert _ hf
  · intro p hp
    rw [he, hq] at hp
    rcases List.mem_append.1 hp with hp | hp
    · exact h.pending p hp
    · obtain rfl := List.mem_singleton.1 hp
      exact hf
  · intro x hx
    rw [he] at hx ⊢
    exact isSome_get?_insert (h.entries x hx) j
  · intro id hi
    rw [he] at hi ⊢
    exact h.get?_insert_of_detached hd hi

theorem takeHead (h : d.Accounted []) {p : Pending τ} {queue : Queue (Pending τ)}
    (hl : d.queue.toList = p :: queue.toList) : { d with queue }.Accounted [p.job.id] := by
  refine h.move ?_ (fun x hx ↦ h.pending x (by rw [hl]; exact List.mem_cons_of_mem _ hx))
    rfl rfl rfl rfl
  simp only [active, queued, runningIds, hl, List.map_cons, List.append_nil]
  exact List.perm_append_singleton _ _

theorem exists_handle (h : d.Accounted []) {p : Pending τ} (hp : p ∈ d.queue.toList) :
    ∃ n, d.handles.lookup p.job.id = some n ∧ d.handleFor p.job.id = (n, d) := by
  rcases handleFor_cases d p.job.id with he | ⟨hn, -⟩
  · exact he
  · have hm : p.job.id ∈ d.active ++ [] :=
      List.mem_append_left _ (List.mem_append_left _ (List.mem_map_of_mem hp))
    rw [← h.handle_iff, hn] at hm
    cases hm

theorem looked_of_look (h : d.Accounted []) (hw : d.WellFormed) (hl : d.look now = some (d', b)) :
    ∃ p queue n, queue.Valid ∧ d.queue.toList = p :: queue.toList ∧
      d.handles.lookup p.job.id = some n ∧ Looked now p queue n d d' b := by
  obtain ⟨p, queue, -, hq, hl⟩ := look_cases hl
  obtain ⟨hv, hlist⟩ := hw.queue.dequeue_eq_some hq
  obtain ⟨n, hn, he⟩ := h.exists_handle (p := p) (by rw [hlist]; exact List.mem_cons_self)
  rw [he] at hl
  exact ⟨p, queue, n, hv, hlist, hn, hl⟩

theorem look (h : d.Accounted []) (hw : d.WellFormed) (hl : d.look now = some (d', b)) :
    d'.Accounted [] := by
  obtain ⟨p, queue, n, hv, hlist, -, hl⟩ := h.looked_of_look hw hl
  have hp : p.job.finished = false := h.pending p (by rw [hlist]; exact List.mem_cons_self)
  have hh := h.takeHead hlist
  cases hl with
  | cancelled => exact hh.finish (j := p.job.fail now _) rfl
  | launched =>
    have hu := hh.update (j := p.job.touch now) (List.mem_append_right _ List.mem_cons_self) hp
    refine hu.move ?_ hu.pending rfl rfl rfl rfl
    simp [active, queued, runningIds, Dispatcher.launch]
  | postponed =>
    obtain ⟨-, hlist'⟩ := hv.enqueue p
    refine hh.move ?_ (fun x hx ↦ ?_) rfl rfl rfl rfl
    · simp only [active, queued, runningIds, hlist', List.map_append, List.map_cons, List.map_nil,
        List.append_nil, List.append_assoc]
      exact (List.perm_append_comm.append_left _).trans (by simp)
    · rw [hlist'] at hx
      rcases List.mem_append.1 hx with hx | hx
      · exact hh.pending x hx
      · obtain rfl := List.mem_singleton.1 hx
        exact hp
  | skipped => exact hh.finish (j := p.job.fail now _) rfl

theorem dispatchReady (h : d.Accounted []) (hw : d.WellFormed) (now : Instant) :
    (d.dispatchReady now).Accounted [] := by
  have hlook (d d' : Dispatcher τ) (b : Bool) (h : d.Accounted [] ∧ d.WellFormed)
      (hl : d.look now = some (d', b)) : d'.Accounted [] ∧ d'.WellFormed :=
    ⟨h.1.look h.2 hl, h.2.look hl⟩
  obtain ⟨hl, -⟩ := lookAll_induction hlook d.queue.size ⟨h, hw⟩ false
  rcases dispatchReady_cases d now with he | he
  · rw [he]
    exact hl
  · rw [he]
    exact { hl with }

theorem endAttempt (h : d.Accounted []) (hw : d.WellFormed) {a : Attempt} (ha : a ∈ d.attempts)
    (hj : j.id = a.id) (hf : j.finished = true) : (d.endAttempt a j).Accounted [] := by
  obtain ⟨xs, ys, he, hfilter⟩ := hw.attempts_filter ha
  let rest : Dispatcher τ := { d with
    running := d.running - 1
    attempts := d.attempts.filter (·.ticket ≠ a.ticket) }
  have hr : rest.Accounted [j.id] := by
    refine h.move ?_ h.pending rfl rfl rfl rfl
    change (d.queued ++ rest.attempts.map (·.id) ++ [j.id]).Perm
      (d.queued ++ d.attempts.map (·.id) ++ [])
    simp only [rest, hfilter]
    simp only [he, hj, List.map_append, List.map_cons, List.append_nil, List.append_assoc]
    refine List.Perm.append_left _ (List.Perm.append_left _ ?_)
    exact List.perm_append_singleton _ _
  exact { hr.finish hf with }

theorem report (h : d.Accounted []) (hw : d.WellFormed) (ticket : Nat) (j : Job) :
    (d.report ticket j).Accounted [] := by
  rcases report_cases d ticket j with he | ⟨a, ha, rfl, hj, ⟨hf, he⟩ | ⟨hf, he⟩⟩
  · rw [he]
    exact h
  · rw [he]
    exact h.endAttempt hw ha hj hf
  · have hm : j.id ∈ d.active ++ [] :=
      List.mem_append_left _ (List.mem_append_right _ (hj ▸ List.mem_map_of_mem ha))
    have hu := h.update hm hf
    rw [he]
    refine hu.move (.of_eq ?_) hu.pending rfl rfl rfl rfl
    simp only [active, queued, runningIds, noteLast, List.map_map]
    congr 2
    exact List.map_congr_left fun x _ ↦ by simp only [Function.comp_apply]; split <;> rfl

theorem taskOver (h : d.Accounted []) (hw : d.WellFormed) (now : Instant) (ticket : Nat)
    (panicked : Bool) : (d.taskOver now ticket panicked).Accounted [] := by
  rcases taskOver_cases d now ticket panicked with he | ⟨a, ha, error, he⟩
  · rw [he]
    exact h
  · rw [he]
    exact h.endAttempt hw ha (hw.last_id a ha) rfl

theorem handleStop (h : d.Accounted []) (hw : d.WellFormed) (now : Instant) (id : String) :
    (d.handleStop now id).Accounted [] := by
  rcases handleStop_cases d now id with ⟨-, he⟩ | ⟨n, -, ⟨-, he⟩ | ⟨p, queue, hr, he⟩⟩
  · rw [he]
    exact h
  · rw [he]
    exact { h with }
  · obtain ⟨-, -, as, bs, hl, -, hl'⟩ := hw.queue.remove_eq_some hr
    have hq : { d with cancelled := n :: d.cancelled, wakeup := true, queue }.Accounted
        [p.job.id] := by
      refine h.move ?_ (fun x hx ↦ h.pending x ?_) rfl rfl rfl rfl
      · simp only [active, queued, runningIds, hl, hl', List.map_append, List.map_cons,
          List.append_nil, List.append_assoc]
        refine List.Perm.append_left _ ?_
        rw [← List.append_assoc]
        exact List.perm_append_singleton _ _
      · rw [hl]
        rw [hl'] at hx
        exact ((List.sublist_cons_self p bs).append_left as).subset hx
    rw [he]
    exact hq.finish (j := p.job.fail now _) rfl

theorem delayNext (h : d.Accounted []) (hw : d.WellFormed) : d.delayNext.2.Accounted [] := by
  unfold Dispatcher.delayNext
  cases hq : d.queue.delayNext with
  | none => exact h
  | some queue =>
    have hp : queue.toList.Perm d.queue.toList := by
      obtain ⟨-, ⟨hl, -⟩ | ⟨p, p', rest, hl, hl'⟩⟩ := hw.queue.delayNext_eq_some hq
      · exact .of_eq hl
      · rw [hl, hl']
        exact List.Perm.swap p p' rest
    refine h.move ?_ (fun x hx ↦ h.pending x (hp.mem_iff.1 hx)) rfl rfl rfl rfl
    exact ((hp.map _).append_right _).append_right _

theorem enqueueAfter (h : d.Accounted []) (hw : d.WellFormed) (now : Instant) (task : τ)
    (parent : String) (hf : j.finished = false) (hl : d.handles.lookup j.id = none)
    (hd : d.detached.get? j.id = none) : (d.enqueueAfter now task j parent).2.Accounted [] := by
  rcases enqueueAfter_cases hw.deps now task j parent with ⟨e, he⟩ | ⟨p, -, hok, he⟩
  · rw [he]
    exact h
  · have henq := h.enqueue hw.queue task hf hl hd
    have hreg : (d.enqueue task j).registry = d.registry.insert j := by
      simp only [Dispatcher.enqueue, handleFor, hl]
    have hadd : ∀ x ∈ (d.deps.add now j.id parent).2.entries,
        ((d.enqueue task j).registry.get? x.1).isSome = true := by
      rcases DependencyGraph.add_cases hw.deps now j.id parent with ⟨c, hc⟩ | ⟨hc, -⟩
      · rw [hc] at hok
        cases hok
      · intro x hx
        rw [hreg]
        rw [hc] at hx
        rcases DependencyGraph.mem_push hx with hx | rfl
        · exact isSome_get?_insert (h.entries x hx) j
        · rw [Registry.get?_insert_self]
          rfl
    rw [he]
    refine henq.setDeps ?_
    split
    · intro x hx
      obtain ⟨y, hy, rfl⟩ := List.mem_map.1 hx
      exact hadd y hy
    · exact hadd

theorem restart (h : d.Accounted []) (hw : d.WellFormed) (now : Instant) (j : Job) :
    (d.restart now j).2.Accounted [] := by
  rcases restart_cases d now j with ⟨e, he⟩ | ⟨task, current, -, -, hl, -, he⟩
  · rw [he]
    exact h
  · have hd := h.eraseDetached current.id
    have henq := hd.enqueue hw.queue task (j := current.again now) rfl hl
      (Registry.get?_erase_self _ _)
    have hl' : d.handles.lookup (current.again now).id = none := hl
    rw [he]
    refine henq.setDeps fun x hx ↦ ?_
    obtain ⟨y, hy, rfl⟩ := List.mem_map.1 hx
    obtain ⟨z, hz, rfl⟩ := List.mem_map.1 hy
    simp only [Dispatcher.enqueue, handleFor, hl']
    exact isSome_get?_insert (h.entries z hz) _

theorem refuse (h : d.Accounted []) (hd : (d.detached.get? j.id).isSome = true)
    (now : Instant) (error : String) :
    { d with
      detached := d.detached.erase j.id
      registry := d.registry.insert (j.fail now error) }.Accounted [] :=
  (h.eraseDetached j.id).registerFinished (j := j.fail now error) rfl (h.not_mem_of_detached hd)
    (Registry.get?_erase_self _ _)

theorem resume (h : d.Accounted []) (hw : d.WellFormed) (now : Instant) :
    (d.resume now).2.Accounted [] := by
  apply hw.resume_keeps (motive := fun e ↦ e.Accounted [])
  · exact fun e j hw h ↦ h.restart hw now j
  · exact fun e j error _ h hd ↦ h.refuse hd now error
  · exact h

theorem forget (h : d.Accounted []) (hu : ¬ d.Unfinished id) : (d.forget id).Accounted [] := by
  refine { h with
    unfinished_iff := fun id' ↦ ?_
    entries := fun x hx ↦ ?_
    detached := ?_ }
  · change _ ↔ id' ∈ d.active ++ []
    rw [← h.unfinished_iff]
    simp only [Unfinished, Dispatcher.forget, Registry.get?_erase]
    by_cases he : id' = id
    · subst he
      simpa [Unfinished] using hu
    · simp [he]
  · obtain ⟨hx, hne⟩ := List.mem_filter.1 hx
    change ((d.registry.erase id).get? x.1).isSome = true
    rw [Registry.get?_erase, if_neg (by simpa using hne)]
    exact h.entries x hx
  · intro id' hi
    change (d.registry.erase id).get? id' = none
    rw [Registry.get?_erase, h.detached id' hi, ite_self]

theorem clearIfFinished (h : d.Accounted []) (id : String) :
    (d.clearIfFinished id).2.Accounted [] := by
  rcases clearIfFinished_cases d id with he | ⟨j, hj, hf, he⟩
  · rw [he]
    exact h
  · rw [he]
    exact h.forget (not_unfinished hj hf)

theorem forgetAll (jobs : List Job) (h : d.Accounted []) (hu : ∀ j ∈ jobs, ¬ d.Unfinished j.id) :
    (jobs.foldl (fun d j ↦ d.forget j.id) d).Accounted [] := by
  induction jobs generalizing d with
  | nil => exact h
  | cons j jobs ih =>
    refine ih (h.forget (hu j List.mem_cons_self)) fun j' hj' ↦ ?_
    rintro ⟨k, hk, hf⟩
    simp only [Dispatcher.forget, Registry.get?_erase] at hk
    split at hk
    · cases hk
    · exact hu j' (List.mem_cons_of_mem _ hj') ⟨k, hk, hf⟩

theorem pruneBefore (h : d.Accounted []) (hw : d.WellFormed) (cutoff : Instant) :
    (d.pruneBefore cutoff).2.Accounted [] := by
  refine h.forgetAll _ fun j hj ↦ ?_
  obtain ⟨hj, hf⟩ := List.mem_filter.1 hj
  exact not_unfinished (hw.registry.get?_of_mem_jobs hj) (Bool.and_eq_true_iff.1 hf).1

theorem takeUp (jobs : List Job) (h : d.Accounted []) (hn : (jobs.map (·.id)).Nodup)
    (hr : ∀ j ∈ jobs, d.registry.get? j.id = none)
    (hd : ∀ j ∈ jobs, d.detached.get? j.id = none) : (d.takeUp jobs).Accounted [] := by
  unfold Dispatcher.takeUp
  induction jobs generalizing d with
  | nil => exact h
  | cons j jobs ih =>
    obtain ⟨hne, hn⟩ := List.nodup_cons.1 hn
    have hrj := hr j List.mem_cons_self
    have hdj := hd j List.mem_cons_self
    have hne : ∀ j' ∈ jobs, j'.id ≠ j.id := fun j' hj' he ↦ hne (List.mem_map.2 ⟨j', hj', he⟩)
    have hr : ∀ j' ∈ jobs, d.registry.get? j'.id = none := fun j' hj' ↦
      hr j' (List.mem_cons_of_mem _ hj')
    have hd : ∀ j' ∈ jobs, d.detached.get? j'.id = none := fun j' hj' ↦
      hd j' (List.mem_cons_of_mem _ hj')
    rw [List.foldl_cons]
    split
    · next hf =>
      have hj : j.id ∉ d.active ++ [] := by
        rw [← h.unfinished_iff, Unfinished, hrj]
        simp
      refine ih (h.registerFinished hf hj hdj) hn (fun j' hj' ↦ ?_) hd
      rw [Registry.get?_insert_of_ne (hne j' hj')]
      exact hr j' hj'
    · refine ih (h.setDetached fun id hi ↦ ?_) hn hr fun j' hj' ↦ ?_
      · rw [Registry.get?_insert] at hi
        split at hi
        · next he => rw [he, hrj]
        · exact h.detached id hi
      · rw [Registry.get?_insert_of_ne (hne j' hj')]
        exact hd j' hj'

theorem lookup_eq_none (h : d.Accounted []) (hr : d.registry.get? id = none) :
    d.handles.lookup id = none := by
  have hi : ¬ (d.handles.lookup id).isSome = true := by
    rw [h.handle_iff, ← h.unfinished_iff, Unfinished, hr]
    simp
  exact Option.not_isSome_iff_eq_none.1 hi

theorem perform (h : d.Accounted []) (hw : d.WellFormed) (now : Instant) (o : Operation τ)
    (ho : d.Fits o) : (d.perform now o).Accounted [] := by
  cases o with
  | load s fs =>
    obtain ⟨hempty, hn⟩ := ho
    have hnone (id : String) := get?_of_not_knows (hempty id)
    exact h.takeUp _ hn (fun j _ ↦ (hnone j.id).1) (fun j _ ↦ (hnone j.id).2)
  | enqueue task j =>
    obtain ⟨hf, hnew⟩ := ho
    obtain ⟨hr, hd⟩ := get?_of_not_knows hnew
    exact h.enqueue hw.queue task hf (h.lookup_eq_none hr) hd
  | enqueueAfter task j parent =>
    obtain ⟨hf, hnew⟩ := ho
    obtain ⟨hr, hd⟩ := get?_of_not_knows hnew
    exact h.enqueueAfter hw now task parent hf (h.lookup_eq_none hr) hd
  | dispatchReady => exact h.dispatchReady hw now
  | report ticket j => exact h.report hw ticket j
  | taskOver ticket panicked => exact h.taskOver hw now ticket panicked
  | handleStop id => exact h.handleStop hw now id
  | restart j => exact h.restart hw now j
  | resume => exact h.resume hw now
  | clearIfFinished id => exact h.clearIfFinished id
  | prune age =>
    rcases prune_cases d now age with he | ⟨cutoff, he⟩
    · rw [he]
      exact h
    · rw [he]
      exact h.pruneBefore hw cutoff
  | delayNext => exact h.delayNext hw

end Accounted

theorem Run.accounted {past : List (Step τ)} (h : Run Proper past d) : d.Accounted [] := by
  induction h with
  | start processors config runners => exact accounted_create processors config runners
  | step now o hrun ho ih =>
    refine ih.perform hrun.wellFormed now o (ho.fits ?_)
    rintro rfl
    obtain ⟨processors, config, runners, rfl⟩ := hrun.eq_create
    exact not_knows_create processors config runners

/-- The jobs with a handle are the unfinished ones; each is queued or running, once. All jobs that
have edges are registered, and the statistics count every registered job once. -/
theorem accounts_agree {past : List (Step τ)} (h : Run Proper past d) :
    (∀ id, (d.handles.lookup id).isSome = true ↔ d.Unfinished id) ∧
    (∀ id, d.Unfinished id → d.active.count id = 1) ∧ (∀ id ∈ d.active, d.Unfinished id) ∧
    (∀ job, d.deps.hasDependencies job = true → d.registry.contains job = true) ∧
    d.stats.queued + d.stats.running + d.stats.finished + d.stats.failed = d.registry.size := by
  have ha := h.accounted
  have hw := h.wellFormed
  have hn : d.active.Nodup := by simpa using ha.nodup
  have hmem : ∀ id, d.Unfinished id ↔ id ∈ d.active := by simpa using ha.unfinished_iff
  refine ⟨fun id ↦ ?_, fun id hu ↦ ?_, fun id hm ↦ (hmem id).2 hm, fun job hj ↦ ?_, ?_⟩
  · rw [ha.handle_iff, ha.unfinished_iff]
  · exact List.count_eq_one_of_mem hn ((hmem id).1 hu)
  · obtain ⟨es, hes⟩ := Option.isSome_iff_exists.1 hj
    exact ha.entries _ (Lookup.mem_of_lookup hes)
  · have hcount := hw.registry.countP_unfinished hn fun id ↦ (hmem id).symm
    have hlen : d.active.length = d.stats.queued + d.stats.running := by
      simp only [active, queued, runningIds, stats, Queue.size, hw.running_eq, List.length_append,
        List.length_map]
    rw [Registry.size_eq, hcount, hlen]
    rfl

theorem accounts_agree_sample :
    sample.2.active = ["second"] ∧
    (∀ id, (sample.2.handles.lookup id).isSome = true ↔ sample.2.Unfinished id) ∧
    sample.2.stats.queued + sample.2.stats.running + sample.2.stats.finished +
      sample.2.stats.failed = sample.2.registry.size := by
  obtain ⟨hh, -, -, -, hs⟩ := accounts_agree sample_run
  exact ⟨by decide +kernel, hh, hs⟩

end JobEngine.Dispatcher
