import JobEngine.Proofs.Dispatcher.Coherence

namespace JobEngine.Dispatcher

open DependencyGraph

variable {τ : Type}

/-- The loop is yet to start, is in a pass that has some looks left and has ended a job or not, or
is parked. -/
inductive Phase
  | idle
  | looking (left : Nat) (settled : Bool)
  | parked

def atFirstLook (d : Dispatcher τ) : Phase := .looking d.queue.size false

theorem atFirstLook_eq {d : Dispatcher τ} {n : Nat} (h : d.queue.size = n) :
    d.atFirstLook = .looking n false := congrArg (Phase.looking · false) h

/-- The states that a loop and its callers reach if `ok` allows every operation of the callers. Only
the loop makes passes; their looks are steps of their own, with callers in between. -/
inductive Reached (ok : Phase → List (Step τ) → Dispatcher τ → Operation τ → Prop) :
    List (Step τ) → Phase → Dispatcher τ → Prop
  | create (processors : UInt64) (config : JobsConfig) (runners : Runners τ) :
    Reached ok [] .idle (create processors config runners)
  | operate {past : List (Step τ)} {φ : Phase} {d : Dispatcher τ} (now : Instant)
    (o : Operation τ) : Reached ok past φ d → o ≠ .dispatchReady → ok φ past d o →
    Reached ok (⟨d, now, o⟩ :: past) φ (d.perform now o)
  | request {past : List (Step τ)} {φ : Phase} {d : Dispatcher τ} (id : String) :
    Reached ok past φ d → Reached ok past φ (d.requestStop id).2
  | start {past : List (Step τ)} {d : Dispatcher τ} :
    Reached ok past .idle d →
    Reached ok past { d with loop := .active }.atFirstLook { d with loop := .active }
  | look {past : List (Step τ)} {d d' : Dispatcher τ} {n : Nat} {settled b : Bool}
    (now : Instant) : Reached ok past (.looking (n + 1) settled) d →
    d.look now = some (d', b) → Reached ok past (.looking n (settled || b)) d'
  | rest {past : List (Step τ)} {d : Dispatcher τ} {n : Nat} {settled : Bool} (now : Instant) :
    Reached ok past (.looking n settled) d → n = 0 ∨ d.look now = none →
    Reached ok past .parked (if settled then { d with wakeup := true } else d)
  | wake {past : List (Step τ)} {d : Dispatcher τ} :
    Reached ok past .parked d → d.wakeup = true →
    Reached ok past { d with wakeup := false }.atFirstLook { d with wakeup := false }
  | stop {past : List (Step τ)} {d : Dispatcher τ} {id : String} {stops : List String}
    (now : Instant) : Reached ok past .parked d → d.stops = id :: stops →
    Reached ok past ({ d with stops }.handleStop now id).atFirstLook
      ({ d with stops }.handleStop now id)
  | poll {past : List (Step τ)} {d : Dispatcher τ} :
    Reached ok past .parked d → Reached ok past d.atFirstLook d

variable {d d' e : Dispatcher τ} {past : List (Step τ)} {φ : Phase} {now : Instant}
  {o : Operation τ} {id : String} {b settled : Bool} {n : Nat}
  {ok : Phase → List (Step τ) → Dispatcher τ → Operation τ → Prop}

namespace Reached

theorem lookAll (h : Reached ok past (.looking n settled) d) (now : Instant) :
    Reached ok past .parked (if (lookAll now n d settled).2 then
      { (lookAll now n d settled).1 with wakeup := true } else (lookAll now n d settled).1) := by
  induction n generalizing d settled with
  | zero => exact h.rest now (.inl rfl)
  | succ n ih =>
    rw [Dispatcher.lookAll]
    cases hl : d.look now with
    | none => exact h.rest now (.inr hl)
    | some x => exact ih (h.look now hl)

theorem dispatchReady (h : Reached ok past d.atFirstLook d) (now : Instant) :
    Reached ok past .parked (d.dispatchReady now) := h.lookAll now

theorem start_loop (h : Reached ok past .idle d) (hl : d.loop = .idle) (now : Instant) :
    Reached ok past .parked (d.start now) := by
  rw [Dispatcher.start, hl]
  exact h.start.dispatchReady now

theorem look_quiet (h : Reached ok past (.looking (n + 1) settled) d) (now : Instant)
    (hl : (d.look now).map (·.2) = some false) :
    Reached ok past (.looking n settled) (((d.look now).map (·.1)).getD d) := by
  obtain ⟨⟨d', b⟩, hd, rfl⟩ := Option.map_eq_some_iff.1 hl
  rw [hd]
  have h := h.look now hd
  rwa [Bool.or_false] at h

theorem turn (h : Reached ok past .parked d) (hc : d.closing = false) (now : Instant) :
    Reached ok past .parked ((d.turn now).getD d) := by
  unfold Dispatcher.turn
  split
  · rw [if_neg (by simp [hc])]
    split
    · next id stops hs => exact (h.stop now hs).dispatchReady now
    · split
      · next hw => exact (h.wake hw).dispatchReady now
      · exact h
  · exact h

end Reached

def Blocked (d : Dispatcher τ) (id : String) : Prop :=
  d.readiness id = .waiting ∧ ∃ n, d.handles.lookup id = some n ∧ d.isCancelled n = false

def Settled (d : Dispatcher τ) : Prop := d.freeSlots = 0 ∨ ∀ id ∈ d.queued, d.Blocked id

/-- Nothing is overlooked: unless a wake-up is stored or the pass will store one, the jobs that it
has no looks left for are blocked. -/
def Covered (d : Dispatcher τ) : Phase → Prop
  | .idle => True
  | .looking left settled =>
    d.wakeup = true ∨ settled = true ∨ ∀ id ∈ d.queued.drop left, d.Blocked id
  | .parked => d.wakeup = true ∨ d.Settled

theorem Covered.of_wakeup (h : d.wakeup = true) (φ : Phase) : d.Covered φ := by
  cases φ with
  | idle => trivial
  | looking left settled => exact .inl h
  | parked => exact .inl h

theorem covered_atFirstLook (d : Dispatcher τ) : d.Covered d.atFirstLook := by
  have hn : d.queued.drop d.queue.size = [] := by
    apply List.drop_of_length_le
    rw [queued, List.length_map, Queue.size]
  refine .inr (.inr ?_)
  rw [hn]
  simp

/-- Queue, slots and wake-up are as before, and jobs in the queue that were blocked still are. -/
structure Quiet (d d' : Dispatcher τ) : Prop where
  queued : d'.queued = d.queued
  freeSlots : d'.freeSlots = d.freeSlots
  wakeup : d'.wakeup = d.wakeup
  blocked : ∀ id ∈ d.queued, d.Blocked id → d'.Blocked id

namespace Quiet

theorem refl (d : Dispatcher τ) : Quiet d d := ⟨rfl, rfl, rfl, fun _ _ ↦ id⟩

theorem trans (h : Quiet d d') (h' : Quiet d' e) : Quiet d e where
  queued := h'.queued.trans h.queued
  freeSlots := h'.freeSlots.trans h.freeSlots
  wakeup := h'.wakeup.trans h.wakeup
  blocked id hi hb := h'.blocked id (h.queued ▸ hi) (h.blocked id hi hb)

theorem covered (h : Quiet d d') (hc : d.Covered φ) : d'.Covered φ := by
  have hb (n : Nat) (hb : ∀ id ∈ d.queued.drop n, d.Blocked id) :
      ∀ id ∈ d'.queued.drop n, d'.Blocked id := by
    intro id hi
    rw [h.queued] at hi
    exact h.blocked id (List.mem_of_mem_drop hi) (hb id hi)
  cases φ with
  | idle => trivial
  | looking left settled => exact Or.imp h.wakeup.trans (Or.imp_right (hb left)) hc
  | parked => exact Or.imp h.wakeup.trans (Or.imp h.freeSlots.trans (hb 0)) hc

theorem takeUp (jobs : List Job) (d : Dispatcher τ) : Quiet d (d.takeUp jobs) := by
  apply takeUp_induction (motive := Quiet d)
  · intro e j h
    exact h.trans ⟨rfl, rfl, rfl, fun _ _ ↦ id⟩
  · intro e j h
    exact h.trans ⟨rfl, rfl, rfl, fun _ _ ↦ id⟩
  · exact refl d

theorem forget (h : id ∉ d.queued) : Quiet d (d.forget id) := by
  refine ⟨rfl, rfl, rfl, fun id' hi hb ↦ ⟨?_, hb.2⟩⟩
  have hne : id' ≠ id := fun he ↦ h (he ▸ hi)
  have he : (d.forget id).deps.edgesOf id' = d.deps.edgesOf id' := by
    rw [Dispatcher.forget, edgesOf_remove, if_neg hne]
  rw [readiness_eq, he, ← readiness_eq]
  exact hb.1

end Quiet

def Noticed (d d' : Dispatcher τ) : Prop := d'.wakeup = true ∨ Quiet d d'

namespace Noticed

theorem of_eq (h : d' = d) : Noticed d d' := .inr (h ▸ .refl d)

theorem trans (h : Noticed d d') (h' : Noticed d' e) : Noticed d e := by
  rcases h' with hw | hq'
  · exact .inl hw
  · rcases h with hw | hq
    · exact .inl (hq'.wakeup.trans hw)
    · exact .inr (hq.trans hq')

theorem covered (h : Noticed d d') (hc : d.Covered φ) : d'.Covered φ := by
  rcases h with hw | hq
  · exact .of_wakeup hw φ
  · exact hq.covered hc

theorem enqueueAfter (hw : d.WellFormed) (now : Instant) (task : τ) (j : Job) (parent : String) :
    Noticed d (d.enqueueAfter now task j parent).2 := by
  rcases enqueueAfter_cases hw.deps now task j parent with ⟨error, he⟩ | ⟨p, -, -, he⟩
  · exact of_eq (by rw [he])
  · rw [he]
    exact .inl rfl

theorem report (d : Dispatcher τ) (ticket : Nat) (j : Job) : Noticed d (d.report ticket j) := by
  rcases report_cases d ticket j with he | ⟨a, -, -, -, ⟨-, he⟩ | ⟨-, he⟩⟩
  · exact of_eq he
  · rw [he]
    exact .inl rfl
  · rw [he]
    exact .inr ⟨rfl, rfl, rfl, fun _ _ ↦ id⟩

theorem taskOver (d : Dispatcher τ) (now : Instant) (ticket : Nat) (panicked : Bool) :
    Noticed d (d.taskOver now ticket panicked) := by
  rcases taskOver_cases d now ticket panicked with he | ⟨a, -, error, he⟩
  · exact of_eq he
  · rw [he]
    exact .inl rfl

theorem handleStop (d : Dispatcher τ) (now : Instant) (id : String) :
    Noticed d (d.handleStop now id) := by
  rcases handleStop_cases d now id with ⟨-, he⟩ | ⟨n, -, ⟨-, he⟩ | ⟨p, queue, -, he⟩⟩
  · exact of_eq he
  · rw [he]
    exact .inl rfl
  · rw [he]
    exact .inl rfl

theorem restart (d : Dispatcher τ) (now : Instant) (j : Job) :
    Noticed d (d.restart now j).2 := by
  rcases restart_cases d now j with ⟨error, he⟩ | ⟨task, current, -, -, -, -, he⟩
  · exact of_eq (by rw [he])
  · rw [he]
    exact .inl rfl

theorem resume (hw : d.WellFormed) (now : Instant) : Noticed d (d.resume now).2 := by
  apply hw.resume_keeps (motive := Noticed d)
  · intro e j _ h
    exact h.trans (restart e now j)
  · intro e j error _ h _
    exact h.trans (.inr ⟨rfl, rfl, rfl, fun _ _ ↦ id⟩)
  · exact of_eq rfl

end Noticed

theorem Accounted.not_mem_queued {j : Job} (h : d.Accounted [])
    (hj : d.registry.get? id = some j) (hf : j.finished = true) : id ∉ d.queued := by
  intro hi
  have hm : id ∈ d.active ++ [] := List.mem_append_left _ (List.mem_append_left _ hi)
  rw [← h.unfinished_iff] at hm
  exact not_unfinished hj hf hm

theorem clearIfFinished_quiet (ha : d.Accounted []) (id : String) :
    Quiet d (d.clearIfFinished id).2 := by
  rcases clearIfFinished_cases d id with he | ⟨j, hj, hf, he⟩
  · rw [he]
    exact .refl d
  · rw [he]
    exact .forget (ha.not_mem_queued hj hf)

theorem pruneBefore_quiet (hw : d.WellFormed) (ha : d.Accounted []) (cutoff : Instant) :
    Quiet d (d.pruneBefore cutoff).2 := by
  apply pruneBefore_induction (motive := Quiet d)
  · intro e j hj h
    obtain ⟨hj, hf⟩ := List.mem_filter.1 hj
    have hn := ha.not_mem_queued (hw.registry.get?_of_mem_jobs hj) (Bool.and_eq_true_iff.1 hf).1
    rw [← h.queued] at hn
    exact h.trans (.forget hn)
  · exact .refl d

/-- Whatever could free a slot, unblock a job or put one in the queue stores a wake-up. -/
theorem perform_noticed (hw : d.WellFormed) (ha : d.Accounted []) (now : Instant)
    (hp : o ≠ .dispatchReady) (hd : o ≠ .delayNext) : Noticed d (d.perform now o) := by
  cases o with
  | load s fs => exact .inr (.takeUp _ d)
  | enqueue task j => exact .inl rfl
  | enqueueAfter task j parent => exact .enqueueAfter hw now task j parent
  | dispatchReady => exact absurd rfl hp
  | report ticket j => exact .report d ticket j
  | taskOver ticket panicked => exact .taskOver d now ticket panicked
  | handleStop id => exact .handleStop d now id
  | restart j => exact .restart d now j
  | resume => exact .resume hw now
  | clearIfFinished id => exact .inr (clearIfFinished_quiet ha id)
  | prune age =>
    rcases prune_cases d now age with he | ⟨cutoff, he⟩
    · exact .of_eq he
    · rw [he]
      exact .inr (pruneBefore_quiet hw ha cutoff)
  | delayNext => exact absurd rfl hd

/-- The first two entries change places. A pass with one look left then misses the second one; any
other pass looks at both of them from now on, or at none. -/
theorem mem_drop_delayNext (hw : d.WellFormed) (hn : n ≠ 1)
    (hi : id ∈ d.delayNext.2.queued.drop n) : id ∈ d.queued.drop n := by
  unfold Dispatcher.delayNext at hi
  cases hq : d.queue.delayNext with
  | none => rwa [hq] at hi
  | some queue =>
    simp only [hq, queued] at hi ⊢
    obtain ⟨-, ⟨hl, -⟩ | ⟨p, p', ps, hl, hl'⟩⟩ := hw.queue.delayNext_eq_some hq
    · rwa [hl] at hi
    · rw [hl'] at hi
      rw [hl]
      rcases n with _ | _ | n
      · exact (List.Perm.swap _ _ _).mem_iff.1 hi
      · exact absurd rfl hn
      · exact hi

theorem Covered.delayNext (hw : d.WellFormed) (h : d.Covered φ)
    (hφ : ∀ settled, φ ≠ .looking 1 settled) : d.delayNext.2.Covered φ := by
  have hmem (n : Nat) (hn : n ≠ 1) : ∀ id ∈ d.delayNext.2.queued.drop n, id ∈ d.queued.drop n :=
    fun _ ↦ mem_drop_delayNext hw hn
  obtain ⟨queue, he⟩ := delayNext_eq d
  rw [he] at hmem ⊢
  cases φ with
  | idle => trivial
  | looking left settled =>
    have hleft : left ≠ 1 := fun he ↦ hφ settled (by rw [he])
    exact Or.imp_right (Or.imp_right fun hb id hi ↦ hb id (hmem left hleft id hi)) h
  | parked =>
    exact Or.imp_right (Or.imp_right fun hb id hi ↦ hb id (hmem 0 Nat.zero_ne_one id hi)) h

theorem Covered.look (hw : d.WellFormed) (ha : d.Accounted [])
    (h : d.Covered (.looking (n + 1) settled)) (hl : d.look now = some (d', b)) :
    d'.Covered (.looking n (settled || b)) := by
  obtain ⟨p, queue, k, hv, hlist, hk, hl⟩ := ha.looked_of_look hw hl
  have hdrop : d.queued.drop (n + 1) = { d with queue }.queued.drop n := by
    simp only [queued, hlist, List.map_cons, List.drop_succ_cons]
  rw [Covered, hdrop] at h
  cases hl with
  | cancelled => exact .inr (.inl (Bool.or_true settled))
  | skipped => exact .inr (.inl (Bool.or_true settled))
  | launched =>
    rw [Bool.or_false]
    exact h
  | postponed hr hc =>
    have hback : { d with queue := queue.enqueue p }.queued =
        { d with queue }.queued ++ [p.job.id] := by
      simp only [queued, (hv.enqueue p).2, List.map_append, List.map_cons, List.map_nil]
    rw [Bool.or_false]
    refine Or.imp_right (Or.imp_right fun hb id hi ↦ ?_) h
    rw [hback, List.drop_append] at hi
    rcases List.mem_append.1 hi with hi | hi
    · exact hb id hi
    · obtain rfl := List.mem_singleton.1 (List.mem_of_mem_drop hi)
      exact ⟨hr, k, hk, hc⟩

theorem Covered.rest (hw : d.WellFormed) (h : d.Covered (.looking n settled))
    (hn : n = 0 ∨ d.look now = none) :
    (if settled then { d with wakeup := true } else d).Covered .parked := by
  cases settled with
  | true => exact .inl rfl
  | false =>
    rcases h with hwake | hs | hb
    · exact .inl hwake
    · cases hs
    · refine .inr ?_
      rcases hn with rfl | hl
      · exact .inr hb
      · rcases look_eq_none hl with hf | hq
        · exact .inl hf
        · rw [hw.queue.dequeue_eq_none_iff] at hq
          refine .inr fun id hi ↦ ?_
          simp [queued, hq] at hi

/-- Callers do what they may ask for, and delay no job just before the last look of a pass. -/
def Timely (φ : Phase) (past : List (Step τ)) (d : Dispatcher τ) (o : Operation τ) : Prop :=
  Proper past d o ∧ (o = .delayNext → ∀ settled, φ ≠ .looking 1 settled)

structure Steady (past : List (Step τ)) (φ : Phase) (d : Dispatcher τ) : Prop where
  wellFormed : d.WellFormed
  accounted : d.Accounted []
  unknown : past = [] → ∀ id, ¬ d.Knows id
  covered : d.Covered φ

namespace Steady

theorem perform (h : Steady past φ d) (now : Instant) (hp : o ≠ .dispatchReady)
    (ho : Timely φ past d o) : Steady (⟨d, now, o⟩ :: past) φ (d.perform now o) where
  wellFormed := h.wellFormed.perform now o
  accounted := h.accounted.perform h.wellFormed now o (ho.1.fits h.unknown)
  unknown := nofun
  covered := by
    by_cases hd : o = .delayNext
    · subst hd
      exact h.covered.delayNext h.wellFormed (ho.2 rfl)
    · exact (perform_noticed h.wellFormed h.accounted now hp hd).covered h.covered

theorem request (h : Steady past φ d) (id : String) : Steady past φ (d.requestStop id).2 := by
  unfold requestStop
  split
  · exact h
  · split
    · exact h
    · have hq : Quiet d { d with stops := d.stops ++ [id] } := ⟨rfl, rfl, rfl, fun _ _ hb ↦ hb⟩
      exact ⟨{ h.wellFormed with }, { h.accounted with }, h.unknown, hq.covered h.covered⟩

theorem look (h : Steady past (.looking (n + 1) settled) d) (hl : d.look now = some (d', b)) :
    Steady past (.looking n (settled || b)) d' where
  wellFormed := h.wellFormed.look hl
  accounted := h.accounted.look h.wellFormed hl
  unknown hpast := by
    -- an entry of the queue is a registered job
    obtain ⟨p, queue, k, -, hlist, -⟩ := h.accounted.looked_of_look h.wellFormed hl
    have hu : d.Unfinished p.job.id :=
      (h.accounted.unfinished_iff _).2 (by simp [active, queued, hlist])
    obtain ⟨j, hj, -⟩ := hu
    exact absurd (.inl (by rw [Registry.contains, hj]; rfl)) (h.unknown hpast p.job.id)
  covered := h.covered.look h.wellFormed h.accounted hl

theorem stop (h : Steady past .parked d) (now : Instant) (id : String) (stops : List String) :
    Steady past ({ d with stops }.handleStop now id).atFirstLook
      ({ d with stops }.handleStop now id) := by
  have hw : { d with stops }.WellFormed := { h.wellFormed with }
  have ha : { d with stops }.Accounted [] := { h.accounted with }
  refine ⟨hw.handleStop now id, ha.handleStop hw now id, fun hpast ↦ ?_, covered_atFirstLook _⟩
  have hl := h.accounted.lookup_eq_none (get?_of_not_knows (h.unknown hpast id)).1
  rw [Dispatcher.handleStop, hl]
  exact h.unknown hpast

end Steady

theorem Reached.steady (h : Reached Timely past φ d) : Steady past φ d := by
  induction h with
  | create processors config runners =>
    exact ⟨wellFormed_create processors config runners,
      accounted_create processors config runners,
      fun _ ↦ not_knows_create processors config runners, trivial⟩
  | operate now o _ hp ho ih => exact ih.perform now hp ho
  | request id _ ih => exact ih.request id
  | start _ ih =>
    exact ⟨{ ih.wellFormed with }, { ih.accounted with }, ih.unknown, covered_atFirstLook _⟩
  | look now _ hl ih => exact ih.look hl
  | rest now _ hn ih =>
    refine ⟨?_, ?_, ?_, ih.covered.rest ih.wellFormed hn⟩
    · split
      · exact ih.wellFormed.wake
      · exact ih.wellFormed
    · split
      · exact { ih.accounted with }
      · exact ih.accounted
    · split
      · exact ih.unknown
      · exact ih.unknown
  | wake _ _ ih =>
    exact ⟨{ ih.wellFormed with }, { ih.accounted with }, ih.unknown, covered_atFirstLook _⟩
  | stop now _ _ ih => exact ih.stop now _ _
  | poll _ ih => exact ⟨ih.wellFormed, ih.accounted, ih.unknown, covered_atFirstLook _⟩

theorem look_blocked (hw : d.WellFormed) (ha : d.Accounted []) (hf : 0 < d.freeSlots)
    (now : Instant) {p : Pending τ} {ps : List (Pending τ)} (hlist : d.queue.toList = p :: ps)
    (hb : d.Blocked p.job.id) :
    ∃ queue, d.look now = some ({ d with queue }, false) ∧ queue.toList = ps ++ [p] := by
  obtain ⟨hwait, k, hk, hc⟩ := hb
  cases hl : d.look now with
  | none =>
    exfalso
    rcases look_eq_none hl with h | h
    · omega
    · rw [hw.queue.dequeue_eq_none_iff, hlist] at h
      cases h
  | some x =>
    obtain ⟨d', b⟩ := x
    obtain ⟨p', queue, k', hv, hlist', hk', hl⟩ := ha.looked_of_look hw hl
    rw [hlist, List.cons.injEq] at hlist'
    obtain ⟨rfl, rfl⟩ := hlist'
    rw [hk, Option.some.injEq] at hk'
    subst hk'
    cases hl with
    | cancelled h =>
      rw [hc] at h
      cases h
    | launched h =>
      rw [hwait] at h
      cases h
    | skipped h =>
      rw [hwait] at h
      cases h
    | postponed => exact ⟨queue.enqueue p, rfl, (hv.enqueue p).2⟩

theorem lookAll_blocked (hw : d.WellFormed) (ha : d.Accounted []) (hf : 0 < d.freeSlots)
    (now : Instant) {ps qs : List (Pending τ)} (hlist : d.queue.toList = ps ++ qs)
    (hb : ∀ p ∈ ps, d.Blocked p.job.id) :
    ∃ queue, lookAll now ps.length d false = ({ d with queue }, false) ∧
      queue.toList = qs ++ ps := by
  -- the entries in front go behind the others one by one, so `qs` grows
  induction ps generalizing d qs with
  | nil => exact ⟨d.queue, rfl, by simpa using hlist⟩
  | cons p ps ih =>
    rw [List.cons_append] at hlist
    obtain ⟨queue, hl, hq⟩ := look_blocked hw ha hf now hlist (hb p List.mem_cons_self)
    rw [List.append_assoc] at hq
    obtain ⟨queue', hl', hq'⟩ := ih (hw.look hl) (ha.look hw hl) hf hq
      fun q hq ↦ hb q (List.mem_cons_of_mem _ hq)
    refine ⟨queue', ?_, ?_⟩
    · rw [List.length_cons, lookAll, hl]
      exact hl'
    · rw [hq', List.append_assoc, List.singleton_append]

theorem Settled.dispatchReady (h : d.Settled) (hw : d.WellFormed) (ha : d.Accounted [])
    (now : Instant) :
    ∃ queue, d.dispatchReady now = { d with queue } ∧ queue.toList = d.queue.toList := by
  by_cases hf : d.freeSlots = 0
  · have hl : d.look now = none := by
      rw [Dispatcher.look, if_pos hf]
    have hn : lookAll now d.queue.size d false = (d, false) := by
      cases d.queue.size with
      | zero => rfl
      | succ n => rw [lookAll, hl]
    refine ⟨d.queue, ?_, rfl⟩
    rw [Dispatcher.dispatchReady, hn]
    rfl
  · have hb : ∀ p ∈ d.queue.toList, d.Blocked p.job.id := by
      rcases h with h | h
      · exact absurd h hf
      · exact fun p hp ↦ h p.job.id (List.mem_map_of_mem hp)
    obtain ⟨queue, hn, hq⟩ := lookAll_blocked hw ha (Nat.pos_of_ne_zero hf) now
      (List.append_nil _).symm hb
    refine ⟨queue, ?_, hq⟩
    rw [Dispatcher.dispatchReady, Queue.size, hn]
    rfl

/-- Whenever the loop is parked and no wake-up is stored, all slots are taken or all jobs in the
queue wait for parents, and none of them has been told to stop. A pass that the poll makes then
changes nothing. -/
theorem parked_settled (h : Reached Timely past .parked d) (hwake : d.wakeup = false) :
    (d.freeSlots = 0 ∧ d.running = d.capacity ∨ ∀ id ∈ d.queued, d.Blocked id) ∧
    ∀ now, ∃ queue, d.dispatchReady now = { d with queue } ∧
      queue.toList = d.queue.toList := by
  have hs := h.steady
  have hd : d.Settled := by
    rcases hs.covered with hw | hd
    · rw [hwake] at hw
      cases hw
    · exact hd
  refine ⟨?_, fun now ↦ hd.dispatchReady hs.wellFormed hs.accounted now⟩
  rcases hd with hf | hb
  · have hslots := hs.wellFormed.slots_eq
    have hrun := hs.wellFormed.running_eq
    exact .inl ⟨hf, by omega⟩
  · exact .inr hb

theorem parked_settled_sample :
    ∃ past, ∃ d : Dispatcher Unit, Reached Timely past .parked d ∧ d.wakeup = false ∧
      d.queued = ["second"] ∧ d.freeSlots = 1 ∧ d.Blocked "second" := by
  have h : Reached Timely [] .idle (create 1 { maxConcurrent := 2 } ({} : Runners Unit)) :=
    .create 1 _ _
  have h := h.start_loop rfl sampleInstant
  have h := h.operate sampleInstant (.enqueue () (sampleJob "first")) nofun
    ⟨by decide +kernel, nofun⟩
  have h := h.turn (by decide +kernel) sampleInstant
  have h := h.operate sampleInstant (.enqueueAfter () (sampleJob "second") "first") nofun
    ⟨by decide +kernel, nofun⟩
  have h := h.turn (by decide +kernel) sampleInstant
  obtain ⟨hs, -⟩ := parked_settled h (by decide +kernel)
  refine ⟨_, _, h, by decide +kernel, by decide +kernel, by decide +kernel, ?_⟩
  rcases hs with ⟨hf, -⟩ | hb
  · exact absurd hf (by decide +kernel)
  · exact hb "second" (by decide +kernel)

def NewIds (past : List (Step τ)) (d : Dispatcher τ) : Operation τ → Prop
  | .load s fs => past = [] ∧ ((s.loadOrEmpty fs).map (·.id)).Nodup
  | .enqueue _ j | .enqueueAfter _ j _ => ¬ Used past d j.id
  | _ => True

theorem Proper.newIds {past : List (Step τ)} {d : Dispatcher τ} {o : Operation τ}
    (h : Proper past d o) : NewIds past d o := by
  cases o with
  | load => exact h
  | enqueue | enqueueAfter => exact h.2
  | dispatchReady | report | taskOver | handleStop | restart | resume | clearIfFinished | prune
  | delayNext => trivial

theorem exists_unsettled_finished :
    ∃ past, ∃ d : Dispatcher Unit,
      Reached (fun φ past d o ↦ φ = .parked ∧ NewIds past d o) past .parked d ∧
        d.wakeup = false ∧ ¬ d.Settled := by
  have h : Reached (fun φ past d o ↦ φ = .parked ∧ NewIds past d o) [] .idle
      (create 1 { maxConcurrent := 2 } ({} : Runners Unit)) := .create 1 _ _
  have h := h.start_loop rfl sampleInstant
  have h := h.operate sampleInstant (.enqueue () (sampleJob "first")) nofun
    ⟨rfl, by unfold NewIds; decide +kernel⟩
  have h := h.turn (by decide +kernel) sampleInstant
  have h := h.operate sampleInstant
    (.enqueueAfter () ((sampleJob "second").finish sampleInstant) "first") nofun
    ⟨rfl, by unfold NewIds; decide +kernel⟩
  have h := h.turn (by decide +kernel) sampleInstant
  have h := h.operate sampleInstant (.clearIfFinished "second") nofun ⟨rfl, trivial⟩
  refine ⟨_, _, h, by decide +kernel, ?_⟩
  rintro (hf | hb)
  · exact absurd hf (by decide +kernel)
  · exact absurd (hb "second" (by decide +kernel)).1 (by decide +kernel)

theorem exists_unsettled_delayed :
    ∃ past, ∃ d : Dispatcher Unit, Reached (fun _ ↦ Proper) past .parked d ∧
      d.wakeup = false ∧ ¬ d.Settled := by
  have h : Reached (fun _ ↦ Proper) [] .idle
      (create 1 { maxConcurrent := 2 } ({} : Runners Unit)) := .create 1 _ _
  have h := h.start_loop rfl sampleInstant
  have h := h.operate sampleInstant (.enqueue () (sampleJob "first")) nofun (by decide +kernel)
  have h := h.turn (by decide +kernel) sampleInstant
  have h := h.operate sampleInstant (.enqueueAfter () (sampleJob "second") "first") nofun
    (by decide +kernel)
  have h := h.operate sampleInstant (.enqueue () (sampleJob "third")) nofun (by decide +kernel)
  have h := h.wake (by decide +kernel)
  rw [atFirstLook_eq (n := 2) (by decide +kernel)] at h
  -- the first look puts the second job behind the third one, the delay brings it back to the front
  have h := h.look_quiet sampleInstant (by decide +kernel)
  have h := h.operate sampleInstant .delayNext nofun trivial
  have h := h.look_quiet sampleInstant (by decide +kernel)
  have h := h.rest sampleInstant (.inl rfl)
  refine ⟨_, _, h, by decide +kernel, ?_⟩
  rintro (hf | hb)
  · exact absurd hf (by decide +kernel)
  · exact absurd (hb "third" (by decide +kernel)).1 (by decide +kernel)

/-- The loop can miss a job if finished jobs are submitted, even if callers come in only while it is
parked, and if a job is delayed in the middle of a pass. -/
theorem parked_unsettled :
    (¬ ∀ past, ∀ d : Dispatcher Unit,
      Reached (fun φ past d o ↦ φ = .parked ∧ NewIds past d o) past .parked d →
        d.wakeup = false → d.Settled) ∧
    ¬ ∀ past, ∀ d : Dispatcher Unit, Reached (fun _ ↦ Proper) past .parked d →
      d.wakeup = false → d.Settled := by
  constructor
  · intro hall
    obtain ⟨past, d, h, hwake, hs⟩ := exists_unsettled_finished
    exact hs (hall past d h hwake)
  · intro hall
    obtain ⟨past, d, h, hwake, hs⟩ := exists_unsettled_delayed
    exact hs (hall past d h hwake)

end JobEngine.Dispatcher
