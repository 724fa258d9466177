import JobEngine.Proofs.Dispatcher.Coherence
import JobEngine.Proofs.Dispatcher.Copies
import JobEngine.Proofs.Dispatcher.Frame

namespace JobEngine.Dispatcher

open DependencyGraph

variable {τ : Type}

/-- Quiet events are about no job: the queue may get another order. -/
inductive Event (τ : Type)
  | quiet
  | submitted (p : Pending τ)
  | restarted (p : Pending τ)
  | launched (l : Launch τ)
  | updated (j : Job)
  | settled (ticket : Nat) (j : Job)
  | refused (j : Job)
  | forgotten (id : String)

namespace Event

def record? : Event τ → Option Job
  | .submitted p | .restarted p => some p.job
  | .launched l => some l.attempt.last
  | .updated j | .settled _ j | .refused j => some j
  | .quiet | .forgotten _ => none

def write (r : Registry) : Event τ → Registry
  | .submitted p | .restarted p => r.insert p.job
  | .launched l => r.insert l.attempt.last
  | .updated j | .settled _ j | .refused j => r.insert j
  | .forgotten id => r.erase id
  | .quiet => r

def entry? : Event τ → Option (Pending τ)
  | .submitted p | .restarted p => some p
  | _ => none

def launch? : Event τ → Option (Launch τ)
  | .launched l => some l
  | _ => none

def ending? : Event τ → Option (Nat × Job)
  | .settled ticket j => some (ticket, j)
  | _ => none

def resumed? : Event τ → Option String
  | .restarted p => some p.job.id
  | .refused j => some j.id
  | _ => none

end Event

theorem Event.eq_of_entry {ev : Event τ} {p : Pending τ} (h : ev.entry? = some p) :
    ev = .submitted p ∨ ev = .restarted p := by
  cases ev with
  | submitted => exact .inl (congrArg _ (Option.some.inj h))
  | restarted => exact .inr (congrArg _ (Option.some.inj h))
  | quiet | launched | updated | settled | refused | forgotten => cases h

theorem Event.eq_launched {ev : Event τ} {l : Launch τ} (h : ev.launch? = some l) :
    ev = .launched l := by
  cases ev with
  | launched => exact congrArg _ (Option.some.inj h)
  | quiet | submitted | restarted | updated | settled | refused | forgotten => cases h

theorem Event.eq_settled {ev : Event τ} {x : Nat × Job} (h : ev.ending? = some x) :
    ev = .settled x.1 x.2 := by
  cases ev with
  | settled =>
    cases h
    rfl
  | quiet | submitted | restarted | launched | updated | refused | forgotten => cases h

/-- The submissions that have not ended, with their jobs. -/
def underway (d : Dispatcher τ) : List (Nat × String) :=
  d.queue.toList.map (fun p ↦ (p.ticket, p.job.id)) ++ d.attempts.map fun a ↦ (a.ticket, a.id)

def Event.Guard (now : Instant) (d : Dispatcher τ) : Event τ → Prop
  | .quiet => True
  | .submitted p => d.fresh ≤ p.ticket
  | .restarted p => d.fresh ≤ p.ticket ∧ ∃ k, (d.registry.get? k.id).getD k = k ∧
      d.allowsRestart k = .ok () ∧ d.handles.lookup k.id = none ∧ p.job = k.again now
  | .launched l => ∃ p ∈ d.queue.toList, d.readiness p.job.id = .ready ∧
      ∃ handle, l = ⟨⟨p.ticket, p.job.id, handle, p.job.touch now⟩, p.task⟩
  | .updated j => j.id ∈ d.runningIds ∧ j.finished = false
  | .settled _ j => j.finished = true ∧ (j.id ∈ d.runningIds ∨ j.error.isSome = true)
  | .refused j => ∃ k, d.detached.get? k.id = some k ∧
      ∃ error, j = k.fail now ("not resumed: " ++ error)
  | .forgotten id => ∃ j, d.registry.get? id = some j ∧ j.finished = true

/-- A submission may add edges of its job, and may bring edges up to date. -/
structure Regraded (d : Dispatcher τ) (id : String) (g : DependencyGraph) : Prop where
  edge : ∀ job, ∀ e ∈ g.edgesOf job, e ∈ d.deps.edgesOf job ∨
    ∃ k, d.registry.get? e.parent = some k ∧ e.Mirrors k
  link : ∀ job parent, Link g.entries job parent →
    Link d.deps.entries job parent ∨ job = id
  wellFormed : g.WellFormed

def Event.Regraphs (d : Dispatcher τ) (g : DependencyGraph) : Event τ → Prop
  | .submitted p => Regraded d p.job.id g
  | .restarted p => g = (d.deps.reopenParent p.job.id).refreshEdges p.job.id d.parentStatus
  | .settled _ j => g = d.deps.setParentFinished j.id j.error.isSome
  | .forgotten id => g = (d.deps.remove id).2
  | .quiet | .launched _ | .updated _ | .refused _ => g = d.deps

structure Effect (now : Instant) (d : Dispatcher τ) (e : Event τ) (d' : Dispatcher τ) : Prop where
  guard : e.Guard now d
  registry : d'.registry = e.write d.registry
  notices : d'.notices = d.notices ++ e.ending?.toList.map (·.2)
  launches : d'.launches = d.launches ++ e.launch?.toList
  underway : (d.underway ++ e.entry?.toList.map fun p ↦ (p.ticket, p.job.id)).Perm
    (e.ending?.toList.map (fun x ↦ (x.1, x.2.id)) ++ d'.underway)
  queue : ∀ p ∈ d'.queue.toList, p ∈ d.queue.toList ∨ e.entry? = some p
  unqueued : ∀ l, e.launch? = some l → ∀ p ∈ d'.queue.toList, p.ticket ≠ l.attempt.ticket
  running : ∀ id ∈ d'.runningIds, id ∈ d.runningIds ∨ ∃ l, e.launch? = some l ∧ l.attempt.id = id
  detached : Undetaches d d'
  resumed : ∀ id, e.resumed? = some id → d'.detached.get? id = none
  handle : ∀ id, (d.handles.lookup id).isSome = true ∨
    (∃ p, e.entry? = some p ∧ p.job.id = id) →
    (∀ x, e.ending? = some x → x.2.id ≠ id) → (d'.handles.lookup id).isSome = true
  graph : e.Regraphs d d'.deps
  fresh : d.fresh ≤ d'.fresh
  ticket : ∀ p, e.entry? = some p → p.ticket < d'.fresh

variable {d d' e : Dispatcher τ} {now : Instant} {j : Job} {id : String} {p : Pending τ} {b : Bool}
  {queue : Queue (Pending τ)} {ev : Event τ} {events : List (Event τ)}

theorem handleFor_eq (d : Dispatcher τ) (id : String) :
    ∃ handles fresh, (d.handleFor id).2 = { d with handles, fresh } ∧ d.fresh ≤ fresh ∧
      (handles.lookup id).isSome = true ∧
      ∀ id', (d.handles.lookup id').isSome = true → (handles.lookup id').isSome = true := by
  rcases handleFor_cases d id with ⟨n, hn, he⟩ | ⟨-, he⟩
  · rw [he]
    exact ⟨d.handles, d.fresh, rfl, le_rfl, Option.isSome_iff_exists.2 ⟨n, hn⟩, fun _ h ↦ h⟩
  · rw [he]
    refine ⟨_, _, rfl, Nat.le_succ _, by simp, fun id' hs ↦ ?_⟩
    rw [Lookup.lookup_cons]
    split
    · rfl
    · exact hs

/-- The entry that an accepted submission puts into the queue. -/
def submission (d : Dispatcher τ) (task : τ) (j : Job) : Pending τ :=
  ⟨(d.handleFor j.id).2.fresh, task, j⟩

namespace Effect

theorem plain (hent : ev.entry? = none) (hend : ev.ending? = none) (hlaunch : ev.launch? = none)
    (guard : ev.Guard now d) (registry : d'.registry = ev.write d.registry)
    (graph : ev.Regraphs d d'.deps) (detached : Undetaches d d')
    (resumed : ∀ id, ev.resumed? = some id → d'.detached.get? id = none)
    (hq : d'.queue.toList.Perm d.queue.toList)
    (ha : d'.attempts.map (fun a ↦ (a.ticket, a.id)) = d.attempts.map fun a ↦ (a.ticket, a.id))
    (hn : d'.notices = d.notices) (hl : d'.launches = d.launches) (fresh : d.fresh ≤ d'.fresh)
    (hh : ∀ id, (d.handles.lookup id).isSome = true → (d'.handles.lookup id).isSome = true) :
    Effect now d ev d' where
  guard := guard
  registry := registry
  notices := by simp [hn, hend]
  launches := by simp [hl, hlaunch]
  underway := by
    simp only [Dispatcher.underway, ha, hent, hend, Option.toList_none, List.map_nil,
      List.append_nil, List.nil_append]
    exact (hq.symm.map _).append_right _
  queue p hp := .inl (hq.mem_iff.1 hp)
  unqueued l hl := by simp [hlaunch] at hl
  running id hi := by
    have hids : d'.runningIds = d.runningIds := by
      have hids := congrArg (List.map Prod.snd) ha
      rw [List.map_map, List.map_map] at hids
      exact hids
    exact .inl (hids ▸ hi)
  detached := detached
  resumed := resumed
  handle id hs _ := hh id (hs.resolve_right (by simp [hent]))
  graph := graph
  fresh := fresh
  ticket := by simp [hent]

theorem reorder (hq : d'.queue.toList.Perm d.queue.toList) (ha : d'.attempts = d.attempts)
    (hr : d'.registry = d.registry) (hn : d'.notices = d.notices) (hl : d'.launches = d.launches)
    (ht : d'.detached = d.detached) (hd : d'.deps = d.deps) (hf : d.fresh ≤ d'.fresh)
    (hh : ∀ id, (d.handles.lookup id).isSome = true → (d'.handles.lookup id).isSome = true) :
    Effect now d .quiet d' :=
  plain rfl rfl rfl trivial hr hd (.of_eq ht) nofun hq (by rw [ha]) hn hl hf hh

theorem settle {rest : Dispatcher τ} {ticket : Nat} (hf : j.finished = true)
    (hj : j.id ∈ d.runningIds ∨ j.error.isSome = true)
    (hu : d.underway.Perm ((ticket, j.id) :: rest.underway))
    (hq : ∀ p ∈ rest.queue.toList, p ∈ d.queue.toList)
    (ha : ∀ id ∈ rest.runningIds, id ∈ d.runningIds)
    (hr : rest.registry = d.registry) (hn : rest.notices = d.notices)
    (hl : rest.launches = d.launches) (ht : rest.detached = d.detached) (hd : rest.deps = d.deps)
    (hfresh : d.fresh ≤ rest.fresh)
    (hh : ∀ id, (d.handles.lookup id).isSome = true → (rest.handles.lookup id).isSome = true) :
    Effect now d (.settled ticket j) (rest.finalize j) where
  guard := ⟨hf, hj⟩
  registry := congrArg (Registry.insert · j) hr
  notices := congrArg (· ++ [j]) hn
  launches := hl.trans (List.append_nil _).symm
  underway := by
    change (d.underway ++ []).Perm ((ticket, j.id) :: rest.underway)
    rwa [List.append_nil]
  queue p hp := .inl (hq p hp)
  unqueued l hl := by cases hl
  running id hi := .inl (ha id hi)
  detached := .of_eq ht
  resumed := nofun
  handle id hs hne := by
    have hne : id ≠ j.id := fun he ↦ hne (ticket, j) rfl he.symm
    change ((rest.handles.filter (·.1 ≠ j.id)).lookup id).isSome = true
    rw [Lookup.lookup_filter_ne, if_neg hne]
    exact hh id (hs.resolve_right (by simp [Event.entry?]))
  graph := congrArg (DependencyGraph.setParentFinished · j.id j.error.isSome) hd
  fresh := hfresh
  ticket := by simp [Event.entry?]

end Effect

theorem launch_effect (hw : d.WellFormed) (hlist : d.queue.toList = p :: queue.toList)
    (hr : d.readiness p.job.id = .ready) (handle : Nat) {handles : List (String × Nat)}
    {fresh freeSlots : Nat} (hfresh : d.fresh ≤ fresh)
    (hh : ∀ id, (d.handles.lookup id).isSome = true → (handles.lookup id).isSome = true) :
    Effect now d (.launched ⟨⟨p.ticket, p.job.id, handle, p.job.touch now⟩, p.task⟩)
      ({ d with handles, fresh, freeSlots, queue }.launch now p handle) where
  guard := ⟨p, by rw [hlist]; exact List.mem_cons_self, hr, handle, rfl⟩
  registry := rfl
  notices := (List.append_nil _).symm
  launches := rfl
  underway := by
    simp only [underway, launch, hlist, Event.entry?, Event.ending?, Option.toList_none,
      List.map_nil, List.append_nil, List.nil_append, List.map_cons, List.map_append,
      List.cons_append, ← List.append_assoc]
    exact (List.perm_append_singleton _ _).symm
  queue x hx := .inl (by rw [hlist]; exact List.mem_cons_of_mem _ hx)
  unqueued l hl x hx := by
    cases hl
    have hn := (List.nodup_append.1 hw.tickets_nodup).1
    rw [hlist, List.map_cons, List.nodup_cons] at hn
    exact fun (ht : x.ticket = p.ticket) ↦ hn.1 (ht ▸ List.mem_map_of_mem hx)
  running id hi := by
    simp only [runningIds, launch, List.map_append, List.mem_append, List.map_cons, List.map_nil,
      List.mem_singleton] at hi
    rcases hi with hi | rfl
    · exact .inl hi
    · exact .inr ⟨_, rfl, rfl⟩
  detached := .of_eq rfl
  resumed := nofun
  handle id hs _ := hh id (hs.resolve_right (by simp [Event.entry?]))
  graph := rfl
  fresh := hfresh
  ticket := by simp [Event.entry?]

/-- Every look is one event. -/
theorem look_effect (hw : d.WellFormed) (hl : d.look now = some (d', b)) :
    ∃ ev, Effect now d ev d' ∧
      (b = true ∧ (∃ ticket j, ev = .settled ticket j) ∨
        b = false ∧ (ev = .quiet ∨ ∃ l, ev = .launched l)) := by
  obtain ⟨p, queue, -, hq, hl⟩ := look_cases hl
  obtain ⟨hv, hlist⟩ := hw.queue.dequeue_eq_some hq
  obtain ⟨handles, fresh, he, hfresh, -, hh⟩ := handleFor_eq d p.job.id
  have hp : p ∈ d.queue.toList := by
    rw [hlist]
    exact List.mem_cons_self
  have hsub : ∀ x ∈ queue.toList, x ∈ d.queue.toList := by
    rw [hlist]
    exact fun x hx ↦ List.mem_cons_of_mem _ hx
  have hu : d.underway = (p.ticket, p.job.id) :: { d with handles, fresh, queue }.underway := by
    simp only [underway, hlist, List.map_cons, List.cons_append]
  have hsettle (error : String) : Effect now d (.settled p.ticket (p.job.fail now error))
      ({ d with handles, fresh, queue }.finalize (p.job.fail now error)) :=
    .settle rfl (.inr rfl) (.of_eq hu) hsub (fun _ h ↦ h) rfl rfl rfl rfl rfl hfresh hh
  rw [he] at hl
  cases hl with
  | cancelled => exact ⟨_, hsettle Text.cancelledBeforeStart, .inl ⟨rfl, _, _, rfl⟩⟩
  | skipped => exact ⟨_, hsettle Text.parentJobFailed, .inl ⟨rfl, _, _, rfl⟩⟩
  | postponed =>
    have hperm : (queue.enqueue p).toList.Perm d.queue.toList := by
      rw [(hv.enqueue p).2, hlist]
      exact List.perm_append_singleton _ _
    exact ⟨_, .reorder hperm rfl rfl rfl rfl rfl rfl hfresh hh, .inr ⟨rfl, .inl rfl⟩⟩
  | launched hr =>
    exact ⟨_, launch_effect hw hlist hr _ hfresh hh, .inr ⟨rfl, .inr ⟨_, rfl⟩⟩⟩

theorem endAttempt_effect (hw : d.WellFormed) {a : Attempt} (ha : a ∈ d.attempts)
    (hj : j.id = a.id) (hf : j.finished = true) :
    Effect now d (.settled a.ticket j) (d.endAttempt a j) := by
  obtain ⟨xs, ys, he, hfilter⟩ := hw.attempts_filter ha
  let rest : Dispatcher τ :=
    { d with running := d.running - 1, attempts := d.attempts.filter (·.ticket ≠ a.ticket) }
  have hrest : rest.attempts = xs ++ ys := hfilter
  have hu : d.underway.Perm ((a.ticket, j.id) :: rest.underway) := by
    simp only [underway, hrest, he, hj, List.map_append, List.map_cons, ← List.append_assoc]
    exact List.perm_middle
  have ha : j.id ∈ d.runningIds := hj ▸ List.mem_map_of_mem ha
  have hs : ∀ id ∈ rest.runningIds, id ∈ d.runningIds := by
    intro id hi
    exact (List.filter_sublist.map _).subset hi
  have hset : Effect now d (.settled a.ticket j) (rest.finalize j) :=
    .settle hf (.inl ha) hu (fun _ h ↦ h) hs rfl rfl rfl rfl rfl le_rfl fun _ h ↦ h
  exact { hset with }

theorem update_effect {a : Attempt} (ha : a ∈ d.attempts) (hj : j.id = a.id)
    (hf : j.finished = false) :
    Effect now d (.updated j)
      ({ d with registry := d.registry.insert j }.noteLast a.ticket j) := by
  refine .plain rfl rfl rfl ⟨hj ▸ List.mem_map_of_mem ha, hf⟩ rfl rfl (.of_eq rfl) nofun (.refl _)
    ?_ rfl rfl le_rfl fun _ h ↦ h
  simp only [noteLast, List.map_map]
  apply List.map_congr_left
  intro x _
  simp only [Function.comp_apply]
  split <;> rfl

theorem Event.of_entry (h : ev.entry? = some p) :
    ev.ending? = none ∧ ev.launch? = none ∧ ∀ r, ev.write r = r.insert p.job := by
  rcases Event.eq_of_entry h with rfl | rfl
  · exact ⟨rfl, rfl, fun _ ↦ rfl⟩
  · exact ⟨rfl, rfl, fun _ ↦ rfl⟩

theorem fresh_le_submission (d : Dispatcher τ) (task : τ) (j : Job) :
    d.fresh ≤ (d.submission task j).ticket := by
  obtain ⟨handles, fresh, he, hfresh, -⟩ := handleFor_eq d j.id
  rw [submission, he]
  exact hfresh

theorem submit_effect (hw : d.WellFormed) (task : τ) (j : Job) {detached : Registry}
    {deps : DependencyGraph} (hent : ev.entry? = some (d.submission task j))
    (hguard : ev.Guard now d) (ht : Undetaches d { d with detached })
    (hres : ∀ id, ev.resumed? = some id → detached.get? id = none) (hg : ev.Regraphs d deps) :
    Effect now d ev { { d with detached }.enqueue task j with deps } := by
  obtain ⟨hend, hlaunch, hwrite⟩ := Event.of_entry hent
  obtain ⟨handles, fresh, he, hfresh, hself, hh⟩ := handleFor_eq d j.id
  have hs : d.submission task j = ⟨fresh, task, j⟩ := by
    rw [submission, he]
  have he' : { { d with detached }.enqueue task j with deps } = { d with
      detached, deps, handles
      registry := d.registry.insert j
      queue := d.queue.enqueue ⟨fresh, task, j⟩
      fresh := fresh + 1
      wakeup := true } := by
    have hd : ({ d with detached }.handleFor j.id).2 = { d with detached, handles, fresh } := by
      have hc : ({ d with detached }.handleFor j.id).2 =
          { (d.handleFor j.id).2 with detached } := by
        unfold handleFor
        cases d.handles.lookup j.id <;> rfl
      rw [hc, he]
    simp only [enqueue]
    generalize { d with detached }.handleFor j.id = x at hd ⊢
    rw [hd]
  have hlist : (d.queue.enqueue ⟨fresh, task, j⟩).toList = d.queue.toList ++ [⟨fresh, task, j⟩] :=
    (hw.queue.enqueue _).2
  rw [hs] at hent hwrite
  rw [he']
  exact {
    guard := hguard
    registry := (hwrite d.registry).symm
    notices := by simp [hend]
    launches := by simp [hlaunch]
    underway := by
      simp only [underway, hlist, hent, hend, Option.toList_none, Option.toList_some, List.map_nil,
        List.nil_append, List.map_append, List.map_cons, List.append_assoc]
      exact List.perm_append_comm.append_left _
    queue := fun p hp ↦ by
      rw [hlist] at hp
      rcases List.mem_append.1 hp with hp | hp
      · exact .inl hp
      · exact .inr (hent.trans (congrArg some (List.mem_singleton.1 hp).symm))
    unqueued := fun l hl ↦ by simp [hlaunch] at hl
    running := fun id hi ↦ .inl hi
    detached := ht
    resumed := hres
    handle := fun id hid _ ↦ by
      rcases hid with hid | ⟨p, hp, rfl⟩
      · exact hh id hid
      · obtain rfl : (⟨fresh, task, j⟩ : Pending τ) = p := Option.some.inj (hent.symm.trans hp)
        exact hself
    graph := hg
    fresh := Nat.le_succ_of_le hfresh
    ticket := fun p hp ↦ by
      obtain rfl : (⟨fresh, task, j⟩ : Pending τ) = p := Option.some.inj (hent.symm.trans hp)
      exact Nat.lt_succ_self fresh }

theorem Regraded.refl (hw : d.WellFormed) (id : String) : Regraded d id d.deps :=
  ⟨fun _ _ he ↦ .inl he, fun _ _ hl ↦ .inl hl, hw.deps⟩

theorem enqueue_effect (hw : d.WellFormed) (now : Instant) (task : τ) (j : Job) :
    Effect now d (.submitted (d.submission task j)) (d.enqueue task j) := by
  have hdeps : (d.enqueue task j).deps = d.deps := by
    obtain ⟨handles, fresh, he, -⟩ := handleFor_eq d j.id
    simp only [enqueue]
    generalize d.handleFor j.id = x at he ⊢
    rw [he]
  have hg : Regraded d j.id (d.enqueue task j).deps := by
    rw [hdeps]
    exact .refl hw j.id
  exact submit_effect hw task j rfl (fresh_le_submission d task j) (.of_eq rfl)
    (by rintro id ⟨⟩) hg

theorem link_enqueueAfter (hw : d.WellFormed) {task : τ} {parent job parent' : String}
    (hl : Link (d.enqueueAfter now task j parent).2.deps.entries job parent') :
    Link d.deps.entries job parent' ∨
      job = j.id ∧ parent' = parent ∧ (d.registry.get? parent).isSome = true := by
  rcases enqueueAfter_cases hw.deps now task j parent with ⟨c, he⟩ | ⟨p, hp, hok, he⟩
  · rw [he] at hl
    exact .inl hl
  · have hl : Link (d.deps.add now j.id parent).2.entries job parent' := by
      rw [he] at hl
      dsimp only at hl
      split at hl
      · exact link_setParentFinished.1 hl
      · exact hl
    rcases add_cases hw.deps now j.id parent with ⟨c, hc⟩ | ⟨hc, -⟩
    · rw [hc] at hok
      cases hok
    · rw [hc] at hl
      rcases link_push.1 hl with hl | ⟨rfl, rfl⟩
      · exact .inl hl
      · exact .inr ⟨rfl, rfl, by rw [hp]; rfl⟩

theorem enqueueAfter_regraded (hw : d.WellFormed) (now : Instant) (task : τ) (j : Job)
    (parent : String) :
    Regraded d j.id (d.enqueueAfter now task j parent).2.deps := by
  refine ⟨fun job e hm ↦ ?_, fun job parent' hl ↦ ?_, (hw.enqueueAfter now task j parent).deps⟩
  · rcases enqueueAfter_cases hw.deps now task j parent with ⟨c, he⟩ | ⟨p, hp, -, -⟩
    · rw [he] at hm
      exact .inl hm
    · rcases Coherent.mem_edgesOf_enqueueAfter hw hp hm with hm | ⟨hpar, hm⟩
      · exact .inl hm
      · exact .inr ⟨p, hpar ▸ hp, hm⟩
  · exact (link_enqueueAfter hw hl).imp_right fun h ↦ h.1

theorem enqueueAfter_effect (hw : d.WellFormed) (task : τ) (j : Job) (parent : String)
    (hok : (d.enqueueAfter now task j parent).1.isOk = true) :
    Effect now d (.submitted (d.submission task j)) (d.enqueueAfter now task j parent).2 := by
  have hg := enqueueAfter_regraded hw now task j parent
  rcases enqueueAfter_cases hw.deps now task j parent with ⟨_, he⟩ | ⟨p, -, -, he⟩
  · rw [he] at hok
    cases hok
  · rw [he] at hg ⊢
    exact submit_effect hw task j rfl (fresh_le_submission d task j) (.of_eq rfl)
      (by rintro id ⟨⟩) hg

def resubmission (d : Dispatcher τ) (now : Instant) (j : Job) : Option (Pending τ) :=
  match d.prepareRestart now ((d.registry.get? j.id).getD j) with
  | .ok (again, task) => some (d.submission task again)
  | .error _ => none

theorem resubmission_cases (hw : d.WellFormed) (now : Instant) (j : Job) :
    (∃ c, d.restart now j = (.error c, d)) ∧ d.resubmission now j = none ∨
      ∃ p, d.resubmission now j = some p ∧ (d.restart now j).1 = .ok () ∧ p.job.id = j.id ∧
        (d.restart now j).2.detached = d.detached.erase j.id ∧
        Effect now d (.restarted p) (d.restart now j).2 := by
  have hid := hw.current_id j
  generalize hcur : (d.registry.get? j.id).getD j = current at hid ⊢
  cases hp : d.prepareRestart now current with
  | error c =>
    exact .inl ⟨⟨c, by simp only [restart, hcur, hp]⟩, by simp only [resubmission, hcur, hp]⟩
  | ok x =>
    obtain ⟨again, task⟩ := x
    obtain ⟨hallow, hl, rfl, -⟩ := prepareRestart_eq_ok hp
    have hr : d.restart now j =
        (.ok (), { { d with detached := d.detached.erase current.id }.enqueue task
          (current.again now) with
          deps := (d.deps.reopenParent current.id).refreshEdges current.id d.parentStatus }) := by
      have hl' : d.handles.lookup (current.again now).id = none := hl
      simp only [restart, hcur, hp, enqueue, handleFor, hl']
    have hs : d.resubmission now j = some (d.submission task (current.again now)) := by
      simp only [resubmission, hcur, hp]
    rw [hr]
    have hknown : (d.registry.get? current.id).getD current = current := by
      rw [hid]
      cases hk : d.registry.get? j.id with
      | none => rfl
      | some k =>
        rw [hk] at hcur
        exact hcur
    refine .inr ⟨_, hs, rfl, hid, ?_, ?_⟩
    · rw [← hid]
      exact (enqueue_cases (d := { d with detached := d.detached.erase current.id }) hw.queue
        task _).2.2.1
    · refine submit_effect hw task _ rfl ?_ (.erase d current.id) ?_ rfl
      · exact ⟨fresh_le_submission d task _, current, hknown, hallow, hl, rfl⟩
      · rintro id ⟨⟩
        exact (Registry.get?_erase ..).trans (if_pos rfl)

theorem refuse_effect {k : Job} (hk : d.detached.get? k.id = some k) (error : String) :
    Effect now d (.refused (k.fail now ("not resumed: " ++ error))) { d with
      detached := d.detached.erase k.id
      registry := d.registry.insert (k.fail now ("not resumed: " ++ error)) } :=
  .plain rfl rfl rfl ⟨k, hk, error, rfl⟩ rfl rfl (.erase d k.id)
    (fun id hid ↦ by
      cases hid
      exact (Registry.get?_erase ..).trans (if_pos rfl))
    (.refl _) rfl rfl rfl le_rfl fun _ h ↦ h

theorem forget_effect (hj : d.registry.get? id = some j) (hf : j.finished = true) :
    Effect now d (.forgotten id) (d.forget id) :=
  .plain rfl rfl rfl ⟨j, hj, hf⟩ rfl rfl (.of_eq rfl) nofun (.refl _) rfl rfl rfl le_rfl fun _ h ↦ h

/-- Events that happen one after the other. -/
inductive Trace (now : Instant) : Dispatcher τ → List (Event τ) → Dispatcher τ → Prop
  | nil (d : Dispatcher τ) : Trace now d [] d
  | cons {d d₁ d' : Dispatcher τ} {ev : Event τ} {events : List (Event τ)} :
    Effect now d ev d₁ → Trace now d₁ events d' → Trace now d (ev :: events) d'

namespace Trace

theorem one (h : Effect now d ev d') : Trace now d [ev] d' := .cons h (.nil d')

theorem append {events' : List (Event τ)} (h : Trace now d events d')
    (h' : Trace now d' events' e) : Trace now d (events ++ events') e := by
  induction h with
  | nil _ => exact h'
  | cons hev _ ih => exact .cons hev (ih h')

theorem keeps {motive : Dispatcher τ → Prop} (h : Trace now d events d')
    (step : ∀ d, ∀ ev ∈ events, ∀ d', motive d → Effect now d ev d' → motive d') (hd : motive d) :
    motive d' := by
  induction h with
  | nil _ => exact hd
  | @cons d d₁ d' ev events hev _ ih =>
    have hd₁ := step d ev List.mem_cons_self d₁ hd hev
    exact ih (fun d x hx ↦ step d x (List.mem_cons_of_mem _ hx)) hd₁

theorem notices (h : Trace now d events d') :
    d'.notices = d.notices ++ (events.filterMap Event.ending?).map (·.2) := by
  induction h with
  | nil d => exact (List.append_nil _).symm
  | @cons d d₁ d' ev events heff _ ih =>
    rw [ih, heff.notices, List.append_assoc, List.filterMap_cons]
    cases ev.ending? <;> rfl

end Trace

/-- The kinds of events that operations bring about. -/
def Operation.Causes : Operation τ → Event τ → Prop
  | _, .quiet => True
  | .enqueue _ _, .submitted _ | .enqueueAfter _ _ _, .submitted _ => True
  | .restart _, .restarted _ | .resume, .restarted _ | .resume, .refused _ => True
  | .dispatchReady, .launched _ | .dispatchReady, .settled _ _ => True
  | .report _ _, .updated _ | .report _ _, .settled _ _ => True
  | .taskOver _ _, .settled _ _ | .handleStop _, .settled _ _ => True
  | .clearIfFinished id, .forgotten id' => id' = id
  | .prune _, .forgotten _ => True
  | _, _ => False

/-- The calls of restart that resuming makes, with the states in which it makes them. -/
def restartCalls (now : Instant) : List Job → Dispatcher τ → List (Dispatcher τ × Job)
  | [], _ => []
  | j :: jobs, d => (d, j) :: restartCalls now jobs (resumeAll now [j] d).2

/-- The entries that a step puts into the queue, one for each call that is accepted. -/
def Step.entries (s : Step τ) : List (Pending τ) :=
  match s.operation with
  | .enqueue task j => [s.before.submission task j]
  | .enqueueAfter task j parent =>
    if (s.before.enqueueAfter s.now task j parent).1.isOk then [s.before.submission task j] else []
  | .restart j => (s.before.resubmission s.now j).toList
  | .resume => (restartCalls s.now s.before.detached.listed s.before).filterMap
      fun c ↦ c.1.resubmission s.now c.2
  | _ => []

theorem lookAll_trace (hw : d.WellFormed) (now : Instant) (n : Nat) (settled : Bool) :
    ∃ events, Trace now d events (lookAll now n d settled).1 ∧
      ∀ ev ∈ events, (.dispatchReady : Operation τ).Causes ev ∧ ev.entry? = none := by
  induction n generalizing d settled with
  | zero => exact ⟨[], .nil d, by simp⟩
  | succ n ih =>
    unfold lookAll
    cases hl : d.look now with
    | none => exact ⟨[], .nil d, by simp⟩
    | some x =>
      obtain ⟨ev, hev, hkind⟩ := look_effect hw hl
      obtain ⟨events, ht, hall⟩ := ih (hw.look hl) (settled || x.2)
      refine ⟨ev :: events, .cons hev ht, List.forall_mem_cons.2 ⟨?_, hall⟩⟩
      rcases hkind with ⟨-, ticket, j, rfl⟩ | ⟨-, rfl | ⟨l, rfl⟩⟩
      · exact ⟨trivial, rfl⟩
      · exact ⟨trivial, rfl⟩
      · exact ⟨trivial, rfl⟩

theorem resumeAll_cons (now : Instant) (j : Job) (jobs : List Job) (d : Dispatcher τ) :
    (resumeAll now (j :: jobs) d).2 = (resumeAll now jobs (resumeAll now [j] d).2).2 := by
  rw [resumeAll, resumeAll]
  rcases d.restart now j with ⟨_ | _, e⟩
  · rfl
  · rfl

theorem WellFormed.resumeAll (h : d.WellFormed) (now : Instant) (jobs : List Job) :
    (resumeAll now jobs d).2.WellFormed := by
  induction jobs generalizing d with
  | nil => exact h
  | cons j jobs ih =>
    have hr := h.restart now j
    unfold Dispatcher.resumeAll
    rcases restart_cases d now j with ⟨c, he⟩ | ⟨task, current, -, -, -, -, he⟩
    · rw [he]
      exact ih (h.refuse _ _)
    · rw [he] at hr ⊢
      exact ih hr

theorem resumeOne_effect (hw : d.WellFormed) (now : Instant) (hj : d.detached.get? j.id = some j) :
    ∃ ev, Effect now d ev (resumeAll now [j] d).2 ∧ (.resume : Operation τ).Causes ev ∧
      ev.entry? = d.resubmission now j ∧
      (resumeAll now [j] d).2.detached = d.detached.erase j.id := by
  rcases resubmission_cases hw now j with ⟨⟨c, he⟩, hn⟩ | ⟨p, hp, hok, -, hd, heff⟩
  · refine ⟨.refused (j.fail now ("not resumed: " ++ c.message)), ?_, trivial, hn.symm, ?_⟩
    · simp only [resumeAll, he]
      exact refuse_effect hj c.message
    · simp only [resumeAll, he]
  · have he : (resumeAll now [j] d).2 = (d.restart now j).2 := by
      rw [resumeAll]
      generalize d.restart now j = x at hok
      obtain ⟨r, e⟩ := x
      simp only at hok
      rw [hok]
      rfl
    rw [he]
    exact ⟨_, heff, trivial, hp.symm, hd⟩

theorem resumeAll_trace {jobs : List Job} (hw : d.WellFormed) (hn : (jobs.map (·.id)).Nodup)
    (hj : ∀ j ∈ jobs, d.detached.get? j.id = some j) (now : Instant) :
    ∃ events, Trace now d events (resumeAll now jobs d).2 ∧
      (∀ ev ∈ events, (.resume : Operation τ).Causes ev) ∧
      events.filterMap Event.entry? =
        (restartCalls now jobs d).filterMap fun c ↦ c.1.resubmission now c.2 := by
  induction jobs generalizing d with
  | nil => exact ⟨[], .nil d, by simp, rfl⟩
  | cons j jobs ih =>
    obtain ⟨hne, hn⟩ := List.nodup_cons.1 hn
    obtain ⟨ev, hev, hc, hent, hd⟩ := resumeOne_effect hw now (hj j List.mem_cons_self)
    have hj' : ∀ k ∈ jobs, (resumeAll now [j] d).2.detached.get? k.id = some k := by
      intro k hk
      have hne : k.id ≠ j.id := fun he ↦ hne (List.mem_map.2 ⟨k, hk, he⟩)
      rw [hd, Registry.get?_erase, if_neg hne]
      exact hj k (List.mem_cons_of_mem _ hk)
    obtain ⟨events, ht, hall, hents⟩ := ih (hw.resumeAll now [j]) hn hj'
    refine ⟨ev :: events, ?_, List.forall_mem_cons.2 ⟨hc, hall⟩, ?_⟩
    · rw [resumeAll_cons]
      exact .cons hev ht
    · rw [restartCalls, List.filterMap_cons, List.filterMap_cons, hents, hent]

theorem forgetAll_trace {jobs : List Job} (hn : (jobs.map (·.id)).Nodup)
    (hj : ∀ j ∈ jobs, d.registry.get? j.id = some j ∧ j.finished = true) (now : Instant) :
    ∃ events, Trace now d events (jobs.foldl (fun d j ↦ d.forget j.id) d) ∧
      ∀ ev ∈ events, ∃ id, ev = .forgotten id := by
  induction jobs generalizing d with
  | nil => exact ⟨[], .nil d, by simp⟩
  | cons j jobs ih =>
    obtain ⟨hne, hn⟩ := List.nodup_cons.1 hn
    obtain ⟨hr, hf⟩ := hj j List.mem_cons_self
    have hj' : ∀ k ∈ jobs, (d.forget j.id).registry.get? k.id = some k ∧ k.finished = true := by
      intro k hk
      have hne : k.id ≠ j.id := fun he ↦ hne (List.mem_map.2 ⟨k, hk, he⟩)
      obtain ⟨hr, hf⟩ := hj k (List.mem_cons_of_mem _ hk)
      refine ⟨?_, hf⟩
      change (d.registry.erase j.id).get? k.id = some k
      rw [Registry.get?_erase, if_neg hne, hr]
    obtain ⟨events, ht, hall⟩ := ih hn hj'
    exact ⟨_, .cons (forget_effect hr hf) ht, List.forall_mem_cons.2 ⟨⟨_, rfl⟩, hall⟩⟩

/-- An operation is a sequence of events of its kinds, with one submission for every call that is
accepted. -/
def Unfolds (d : Dispatcher τ) (now : Instant) (o : Operation τ) : Prop :=
  ∃ events, Trace now d events (d.perform now o) ∧ (∀ ev ∈ events, o.Causes ev) ∧
    events.filterMap Event.entry? = Step.entries ⟨d, now, o⟩

namespace Unfolds

variable {o : Operation τ}

theorem of_eq (he : d.perform now o = d) (hent : Step.entries ⟨d, now, o⟩ = []) :
    Unfolds d now o := by
  rw [Unfolds, he, hent]
  exact ⟨[], .nil d, by simp, rfl⟩

theorem one (he : d.perform now o = d') (heff : Effect now d ev d') (hc : o.Causes ev)
    (hent : Step.entries ⟨d, now, o⟩ = ev.entry?.toList) : Unfolds d now o := by
  refine ⟨[ev], .one (he ▸ heff), by simpa using hc, ?_⟩
  rw [hent]
  cases ev <;> rfl

theorem enqueueAfter (hw : d.WellFormed) (task : τ) (j : Job) (parent : String) :
    Unfolds d now (.enqueueAfter task j parent) := by
  by_cases hok : (d.enqueueAfter now task j parent).1.isOk = true
  · refine one rfl (enqueueAfter_effect hw task j parent hok) trivial ?_
    simp only [Step.entries, if_pos hok]
    rfl
  · rcases enqueueAfter_cases hw.deps now task j parent with ⟨c, he⟩ | ⟨p, -, -, he⟩
    · exact of_eq (congrArg (·.2) he) (by simp only [Step.entries, if_neg hok])
    · rw [he] at hok
      exact absurd rfl hok

theorem dispatchReady (hw : d.WellFormed) (now : Instant) : Unfolds d now .dispatchReady := by
  obtain ⟨events, ht, hall⟩ := lookAll_trace hw now d.queue.size false
  have hent : events.filterMap Event.entry? = [] :=
    List.filterMap_eq_nil_iff.2 fun ev hev ↦ (hall ev hev).2
  rcases dispatchReady_cases d now with he | he
  · rw [← he] at ht
    exact ⟨events, ht, fun ev hev ↦ (hall ev hev).1, hent⟩
  · have hwake : Trace now d (events ++ [.quiet]) (d.dispatchReady now) := by
      rw [he]
      exact ht.append (.one (.reorder (.refl _) rfl rfl rfl rfl rfl rfl le_rfl fun _ h ↦ h))
    refine ⟨_, hwake, fun ev hev ↦ ?_, ?_⟩
    · rcases List.mem_append.1 hev with hev | hev
      · exact (hall ev hev).1
      · rw [List.mem_singleton.1 hev]
        trivial
    · rw [List.filterMap_append, hent]
      rfl

theorem report (hw : d.WellFormed) (ticket : Nat) (j : Job) :
    Unfolds d now (.report ticket j) := by
  rcases report_cases d ticket j with he | ⟨a, ha, rfl, hj, ⟨hf, he⟩ | ⟨hf, he⟩⟩
  · exact of_eq he rfl
  · exact one he (endAttempt_effect hw ha hj hf) trivial rfl
  · exact one he (update_effect ha hj hf) trivial rfl

theorem taskOver (hw : d.WellFormed) (ticket : Nat) (panicked : Bool) :
    Unfolds d now (.taskOver ticket panicked) := by
  rcases taskOver_cases d now ticket panicked with he | ⟨a, ha, error, he⟩
  · exact of_eq he rfl
  · exact one he (endAttempt_effect hw ha (hw.last_id a ha) rfl) trivial rfl

theorem handleStop (hw : d.WellFormed) (id : String) : Unfolds d now (.handleStop id) := by
  rcases handleStop_cases d now id with ⟨-, he⟩ | ⟨n, -, ⟨-, he⟩ | ⟨p, queue, hr, he⟩⟩
  · exact of_eq he rfl
  · exact one he (.reorder (.refl _) rfl rfl rfl rfl rfl rfl le_rfl fun _ h ↦ h) trivial rfl
  · obtain ⟨-, -, as, bs, hl, -, hl'⟩ := hw.queue.remove_eq_some hr
    have hu : d.underway.Perm ((p.ticket, p.job.id) ::
        { d with cancelled := n :: d.cancelled, wakeup := true, queue }.underway) := by
      simp only [underway, hl, hl', List.map_append, List.map_cons, List.append_assoc,
        List.cons_append]
      exact List.perm_middle
    have hsub : ∀ x ∈ queue.toList, x ∈ d.queue.toList := by
      rw [hl, hl']
      exact fun x hx ↦ ((List.sublist_cons_self p bs).append_left as).subset hx
    have hset : Effect now d (.settled p.ticket (p.job.fail now Text.cancelledBeforeStart))
        ({ d with cancelled := n :: d.cancelled, wakeup := true, queue }.finalize
          (p.job.fail now Text.cancelledBeforeStart)) :=
      .settle rfl (.inr rfl) hu hsub (fun _ h ↦ h) rfl rfl rfl rfl rfl le_rfl fun _ h ↦ h
    exact one he hset trivial rfl

theorem restart (hw : d.WellFormed) (j : Job) : Unfolds d now (.restart j) := by
  rcases resubmission_cases hw now j with ⟨⟨c, he⟩, hn⟩ | ⟨p, hp, -, -, -, heff⟩
  · refine of_eq (congrArg (·.2) he) ?_
    simp only [Step.entries, hn, Option.toList_none]
  · refine one rfl heff trivial ?_
    simp only [Step.entries, hp]
    rfl

theorem prune (hw : d.WellFormed) (age : Int) : Unfolds d now (.prune age) := by
  rcases prune_cases d now age with he | ⟨cutoff, he⟩
  · exact of_eq he rfl
  · have hj : ∀ j ∈ d.expired cutoff, d.registry.get? j.id = some j ∧ j.finished = true := by
      intro j hj
      obtain ⟨hj, hf⟩ := List.mem_filter.1 hj
      exact ⟨hw.registry.get?_of_mem_jobs hj, (Bool.and_eq_true_iff.1 hf).1⟩
    have hn : ((d.expired cutoff).map (·.id)).Nodup :=
      hw.registry.nodup_ids.sublist (List.filter_sublist.map _)
    obtain ⟨events, ht, hall⟩ := forgetAll_trace hn hj now
    rw [Unfolds, he]
    refine ⟨events, ht, fun ev hev ↦ ?_, List.filterMap_eq_nil_iff.2 fun ev hev ↦ ?_⟩
    · obtain ⟨id, rfl⟩ := hall ev hev
      trivial
    · obtain ⟨id, rfl⟩ := hall ev hev
      rfl

theorem delayNext (hw : d.WellFormed) : Unfolds d now .delayNext := by
  cases hq : d.queue.delayNext with
  | none => exact of_eq (by simp only [perform, Dispatcher.delayNext, hq]) rfl
  | some queue =>
    have hp : queue.toList.Perm d.queue.toList := by
      obtain ⟨-, ⟨hl, -⟩ | ⟨p, p', rest, hl, hl'⟩⟩ := hw.queue.delayNext_eq_some hq
      · exact .of_eq hl
      · rw [hl, hl']
        exact List.Perm.swap p p' rest
    have he : d.perform now .delayNext = { d with queue } := by
      simp only [perform, Dispatcher.delayNext, hq]
    exact one he (.reorder hp rfl rfl rfl rfl rfl rfl le_rfl fun _ h ↦ h) trivial rfl

end Unfolds

def Event.Proceeds : Event τ → Prop
  | .quiet | .launched _ | .updated _ | .settled _ _ => True
  | .submitted _ | .restarted _ | .refused _ | .forgotten _ => False

theorem Operation.proceeds_of_settles {o : Operation τ} {ticket : Nat}
    (hs : o.Causes (.settled ticket j)) (hc : o.Causes ev) : ev.Proceeds := by
  cases ev with
  | quiet | launched | updated | settled => trivial
  | submitted p | restarted p | refused k | forgotten id =>
    cases o with
    | dispatchReady | report | taskOver | handleStop => cases hc
    | load | enqueue | enqueueAfter | restart | resume | clearIfFinished | prune | delayNext =>
      cases hs

theorem underway_ids (d : Dispatcher τ) : d.underway.map Prod.snd = d.active := by
  simp only [underway, active, queued, runningIds, List.map_append, List.map_map]
  rfl

namespace Effect

variable (h : Effect now d ev d')
include h

theorem registry_insert (hj : ev.record? = some j) : d'.registry = d.registry.insert j := by
  rw [h.registry]
  cases ev <;> cases hj <;> rfl

theorem ids_perm : (d.active ++ ev.entry?.toList.map (·.job.id)).Perm
    (ev.ending?.toList.map (·.2.id) ++ d'.active) := by
  have hu := h.underway.map Prod.snd
  simp only [List.map_append, List.map_map, underway_ids] at hu
  exact hu

theorem active_perm (hp : ev.Proceeds) :
    d.active.Perm (ev.ending?.toList.map (·.2.id) ++ d'.active) := by
  have hent : ev.entry? = none := by
    cases ev <;> first | rfl | cases hp
  simpa only [hent, Option.toList_none, List.map_nil, List.append_nil] using h.ids_perm

theorem active_subset (hp : ev.Proceeds) (hi : id ∈ d'.active) : id ∈ d.active :=
  (h.active_perm hp).mem_iff.2 (List.mem_append_right _ hi)

theorem record_active (hp : ev.Proceeds) (hj : ev.record? = some j) : j.id ∈ d.active := by
  cases ev with
  | quiet => cases hj
  | launched l =>
    obtain ⟨p, hmem, -, handle, rfl⟩ := h.guard
    cases hj
    exact List.mem_append_left _ (List.mem_map_of_mem hmem)
  | updated k =>
    cases hj
    exact List.mem_append_right _ h.guard.1
  | settled ticket k =>
    cases hj
    exact (h.active_perm hp).mem_iff.2 (List.mem_append_left _ List.mem_cons_self)
  | submitted | restarted | refused | forgotten => cases hp

theorem get?_of_ne (hf : ev ≠ .forgotten id) (hne : ∀ j, ev.record? = some j → id ≠ j.id) :
    d'.registry.get? id = d.registry.get? id := by
  cases hj : ev.record? with
  | some j => rw [h.registry_insert hj, Registry.get?_insert_of_ne (hne j hj)]
  | none =>
    rw [h.registry]
    cases ev with
    | quiet => rfl
    | forgotten id' =>
      have hne : id ≠ id' := fun he ↦ hf (he ▸ rfl)
      exact (Registry.get?_erase ..).trans (if_neg hne)
    | submitted | restarted | launched | updated | settled | refused => cases hj

theorem get?_of_idle (hp : ev.Proceeds) (hi : id ∉ d.active) :
    d'.registry.get? id = d.registry.get? id := by
  refine h.get?_of_ne ?_ fun j hj he ↦ hi (he ▸ h.record_active hp hj)
  rintro rfl
  exact hp

theorem mem_active (hi : id ∈ d'.active) :
    id ∈ d.active ∨ ∃ p, ev.entry? = some p ∧ p.job.id = id := by
  have hm := h.ids_perm.mem_iff.2 (List.mem_append_right _ hi)
  simpa using hm

theorem mem_active_or_ended (hi : id ∈ d.active) :
    id ∈ d'.active ∨ ∃ x, ev.ending? = some x ∧ x.2.id = id := by
  have hm := h.ids_perm.mem_iff.1 (List.mem_append_left _ hi)
  rw [List.mem_append, or_comm] at hm
  simpa using hm

theorem entry_active (hp : ev.entry? = some p) : p.job.id ∈ d'.active := by
  have hm : p.job.id ∈ d.active ++ ev.entry?.toList.map (·.job.id) := by simp [hp]
  simpa [(Event.of_entry hp).1] using h.ids_perm.mem_iff.1 hm

theorem ended_idle (hn : d.active.Nodup) {x : Nat × Job} (hx : ev.ending? = some x) :
    x.2.id ∉ d'.active := by
  obtain rfl := Event.eq_settled hx
  have hn := (h.active_perm trivial).nodup_iff.1 hn
  exact (List.nodup_cons.1 hn).1

theorem deps_wellFormed (hw : d.deps.WellFormed) : d'.deps.WellFormed := by
  have hg := h.graph
  cases ev with
  | submitted p => exact hg.wellFormed
  | restarted p =>
    rw [hg]
    exact (hw.reopenParent _).refreshEdges _ _
  | settled ticket j =>
    rw [hg]
    exact hw.setParentFinished _ _
  | forgotten id =>
    rw [hg]
    exact hw.remove id
  | quiet | launched | updated | refused => exact hg ▸ hw

theorem nodup_active (hp : ev.Proceeds) (hn : d.active.Nodup) : d'.active.Nodup :=
  (List.nodup_append.1 ((h.active_perm hp).nodup_iff.1 hn)).2.1

end Effect

theorem Trace.idle (h : Trace now d events d') (hp : ∀ ev ∈ events, ev.Proceeds)
    (hi : id ∉ d.active) : d'.registry.get? id = d.registry.get? id ∧ id ∉ d'.active ∧
      ∀ l ∈ d'.launches, l.attempt.id = id → l ∈ d.launches := by
  apply h.keeps (motive := fun e ↦ e.registry.get? id = d.registry.get? id ∧ id ∉ e.active ∧
    ∀ l ∈ e.launches, l.attempt.id = id → l ∈ d.launches)
  · rintro e ev hev e' ⟨hr, hi, hl⟩ heff
    have hev := hp ev hev
    refine ⟨(heff.get?_of_idle hev hi).trans hr, fun hi' ↦ hi (heff.active_subset hev hi'), ?_⟩
    intro l hmem hid
    rw [heff.launches] at hmem
    rcases List.mem_append.1 hmem with hmem | hmem
    · exact hl l hmem hid
    · obtain rfl := Event.eq_launched (Option.mem_toList.1 hmem)
      obtain ⟨p, -, -, handle, rfl⟩ := heff.guard
      have hm : p.job.id ∈ e.active := heff.record_active (j := p.job.touch now) trivial rfl
      exact absurd (hid ▸ hm) hi
  · exact ⟨rfl, hi, fun l hl _ ↦ hl⟩

/-- What operations do, but for loading a state file, they do in events. -/
theorem WellFormed.unfolds (hw : d.WellFormed) (now : Instant) {o : Operation τ}
    (ho : ∀ s fs, o ≠ .load s fs) : Unfolds d now o := by
  cases o with
  | load s fs => exact absurd rfl (ho s fs)
  | enqueue task j => exact .one rfl (enqueue_effect hw now task j) trivial rfl
  | enqueueAfter task j parent => exact .enqueueAfter hw task j parent
  | dispatchReady => exact .dispatchReady hw now
  | report ticket j => exact .report hw ticket j
  | taskOver ticket panicked => exact .taskOver hw ticket panicked
  | handleStop id => exact .handleStop hw id
  | restart j => exact .restart hw j
  | resume =>
    refine resumeAll_trace hw (Registry.nodup_listed_ids hw.detached) (fun j hj ↦ ?_) now
    exact hw.detached.get?_of_mem_jobs (Registry.mem_listed.1 hj)
  | clearIfFinished id =>
    rcases clearIfFinished_cases d id with he | ⟨j, hj, hf, he⟩
    · exact .of_eq he rfl
    · exact .one he (forget_effect hj hf) rfl rfl
  | prune age => exact .prune hw age
  | delayNext => exact .delayNext hw

theorem WellFormed.active_subset (hw : d.WellFormed) (now : Instant) {o : Operation τ}
    (ho : ∀ s fs, o ≠ .load s fs) (hent : Step.entries ⟨d, now, o⟩ = []) :
    (d.perform now o).active ⊆ d.active := by
  obtain ⟨events, ht, -, he⟩ := hw.unfolds now ho
  rw [hent, List.filterMap_eq_nil_iff] at he
  intro id
  apply ht.keeps (motive := fun e ↦ id ∈ e.active → id ∈ d.active)
  · intro e ev hev e' hkeep heff hi
    rcases heff.mem_active hi with hi | ⟨p, hp, -⟩
    · exact hkeep hi
    · rw [he ev hev] at hp
      cases hp
  · exact fun hi ↦ hi

end JobEngine.Dispatcher
