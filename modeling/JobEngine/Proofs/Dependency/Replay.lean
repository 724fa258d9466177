import JobEngine.Proofs.Dependency.Acceptance
import Mathlib.Data.List.Induction

namespace JobEngine.DependencyGraph

variable {g : DependencyGraph} {calls later : List Call} {c : Call} {e : Edge} {now : Instant}
  {job parent : String}

/-- What a call says of the edge from a job to a parent: whether the parent has finished, and
whether with an error. -/
def Call.verdict? (job parent : String) : Call → Option (Bool × Bool)
  | .setParentFinished p hasError => if p = parent then some (true, hasError) else none
  | .reopenParent p => if p = parent then some (false, false) else none
  | .refreshEdges j status =>
    if j = job then (status parent).map fun x ↦ (x.1, x.1 && x.2) else none
  | .add _ _ _ | .remove _ => none

def verdict (job parent : String) (calls : List Call) : Bool × Bool :=
  (calls.filterMap (Call.verdict? job parent)).getLast?.getD (false, false)

def Call.amend (job : String) (c : Call) (e : Edge) : Edge :=
  { e with
    finished := ((c.verdict? job e.parent).getD (e.finished, e.hasError)).1
    hasError := ((c.verdict? job e.parent).getD (e.finished, e.hasError)).2 }

/-- Among some calls on a new graph there is one that adds an edge at some time, and `later` are
those after it. -/
def Added (calls : List Call) (job parent : String) (now : Instant) (later : List Call) : Prop :=
  ∃ before, calls = before ++ .add now job parent :: later ∧
    ((built before).add now job parent).1 = .ok ()

/-- The edge is not added again after that. -/
structure LastAdded (calls : List Call) (job parent : String) (now : Instant)
    (later : List Call) : Prop where
  added : Added calls job parent now later
  last : ∀ now' later', Added calls job parent now' later' → later.length ≤ later'.length

theorem verdict_snoc (job parent : String) (calls : List Call) (c : Call) :
    verdict job parent (calls ++ [c]) =
      (c.verdict? job parent).getD (verdict job parent calls) := by
  rw [verdict, List.filterMap_append]
  cases hc : c.verdict? job parent with
  | none => simp [hc, verdict]
  | some v => simp [hc]

theorem Call.verdict?_error {v : Bool × Bool} (h : c.verdict? job parent = some v)
    (he : v.2 = true) : v.1 = true := by
  cases c with
  | add | remove => cases h
  | setParentFinished p hasError =>
    obtain ⟨-, hv⟩ := Option.ite_none_right_eq_some.1 h
    cases hv
    rfl
  | reopenParent p =>
    obtain ⟨-, hv⟩ := Option.ite_none_right_eq_some.1 h
    cases hv
    cases he
  | refreshEdges j status =>
    obtain ⟨-, hs⟩ := Option.ite_none_right_eq_some.1 h
    obtain ⟨x, -, rfl⟩ := Option.map_eq_some_iff.1 hs
    exact (Bool.and_eq_true_iff.1 he).1

theorem verdict_error (calls : List Call) (h : (verdict job parent calls).2 = true) :
    (verdict job parent calls).1 = true := by
  induction calls using List.reverseRecOn with
  | nil => cases h
  | append_singleton calls c ih =>
    rw [verdict_snoc] at h ⊢
    cases hc : c.verdict? job parent with
    | none =>
      rw [hc] at h
      exact ih h
    | some v =>
      rw [hc] at h
      exact Call.verdict?_error hc h

theorem built_snoc (calls : List Call) (c : Call) :
    built (calls ++ [c]) = (built calls).after c := by
  rw [built, List.foldl_append]
  rfl

theorem wellFormed_built (calls : List Call) : (built calls).WellFormed :=
  (wellFormed_default.afterAll List.nodup_nil calls).1

theorem amend_of_silent (h : c.verdict? job e.parent = none) : c.amend job e = e := by
  rw [Call.amend, h]
  rfl

theorem mem_edgesOf_after (h : g.WellFormed) : e ∈ (g.after c).edgesOf job ↔
    (c ≠ .remove job ∧ ∃ e₀ ∈ g.edgesOf job, c.amend job e₀ = e) ∨
      ∃ now, c = .add now job e.parent ∧ (g.add now job e.parent).1 = .ok () ∧
        e = { created := now, parent := e.parent } := by
  cases c with
  | add now j p =>
    have hkeep : ∀ e₀, (Call.add now j p).amend job e₀ = e₀ := fun e₀ ↦ amend_of_silent rfl
    simp only [DependencyGraph.after, hkeep, exists_eq_right, ne_eq, reduceCtorEq,
      not_false_eq_true, true_and, Call.add.injEq]
    rcases add_cases h now j p with ⟨r, he⟩ | ⟨he, -, -⟩
    · rw [he]
      refine ⟨.inl, ?_⟩
      rintro (hm | ⟨_, ⟨rfl, rfl, rfl⟩, hok, -⟩)
      · exact hm
      · rw [he] at hok
        cases hok
    · rw [he, edgesOf_push]
      split
      · next hj =>
        subst hj
        rw [List.mem_append, List.mem_singleton]
        refine or_congr_right ⟨?_, ?_⟩
        · rintro rfl
          exact ⟨now, ⟨rfl, rfl, rfl⟩, by rw [he], rfl⟩
        · rintro ⟨_, ⟨rfl, -, hp⟩, -, he⟩
          rw [he, hp]
      · next hj =>
        refine ⟨.inl, ?_⟩
        rintro (hm | ⟨_, ⟨-, rfl, -⟩, -⟩)
        · exact hm
        · exact absurd rfl hj
  | setParentFinished p hasError =>
    have hf : (Call.setParentFinished p hasError).amend job =
        fun e ↦ if e.parent = p then { e with finished := true, hasError } else e := by
      funext e
      simp only [Call.amend, Call.verdict?, eq_comm (a := p)]
      split <;> rfl
    simp only [DependencyGraph.after, DependencyGraph.setParentFinished, edgesOf_mapEdges, hf,
      List.mem_map, ne_eq, reduceCtorEq, not_false_eq_true, true_and, false_and, exists_false,
      or_false]
  | reopenParent p =>
    have hf : (Call.reopenParent p).amend job =
        fun e ↦ if e.parent = p then { e with finished := false, hasError := false } else e := by
      funext e
      simp only [Call.amend, Call.verdict?, eq_comm (a := p)]
      split <;> rfl
    simp only [DependencyGraph.after, DependencyGraph.reopenParent, edgesOf_mapEdges, hf,
      List.mem_map, ne_eq, reduceCtorEq, not_false_eq_true, true_and, false_and, exists_false,
      or_false]
  | refreshEdges j status =>
    have hmap : (g.refreshEdges j status).edgesOf job =
        (g.edgesOf job).map ((Call.refreshEdges j status).amend job) := by
      rw [edgesOf_refreshEdges]
      split
      · next hj =>
        subst hj
        refine List.map_congr_left fun e _ ↦ ?_
        simp only [Edge.refresh, Call.amend, Call.verdict?, ↓reduceIte]
        cases status e.parent <;> rfl
      · next hj =>
        have hid : (g.edgesOf job).map ((Call.refreshEdges j status).amend job) =
            (g.edgesOf job).map id :=
          List.map_congr_left fun e _ ↦ amend_of_silent (if_neg (Ne.symm hj))
        rw [hid, List.map_id]
    simp only [DependencyGraph.after, hmap, List.mem_map, ne_eq, reduceCtorEq, not_false_eq_true,
      true_and, false_and, exists_false, or_false]
  | remove j =>
    have hkeep : ∀ e₀, (Call.remove j).amend job e₀ = e₀ := fun e₀ ↦ amend_of_silent rfl
    simp only [DependencyGraph.after, edgesOf_remove, hkeep, exists_eq_right, ne_eq,
      Call.remove.injEq, reduceCtorEq, false_and, exists_false, or_false]
    split
    · next hj => simp [hj]
    · next hj => simp [Ne.symm hj]

theorem added_snoc : Added (calls ++ [c]) job parent now later ↔
    (∃ l, later = l ++ [c] ∧ Added calls job parent now l) ∨
      later = [] ∧ c = .add now job parent ∧
        ((built calls).add now job parent).1 = .ok () := by
  constructor
  · rintro ⟨before, he, hok⟩
    rcases List.eq_nil_or_concat later with rfl | ⟨l, c', rfl⟩
    · obtain ⟨rfl, hc⟩ := List.append_inj' he rfl
      exact .inr ⟨rfl, List.singleton_inj.1 hc, hok⟩
    · rw [List.concat_eq_append] at he ⊢
      rw [← List.cons_append, ← List.append_assoc] at he
      obtain ⟨rfl, hc⟩ := List.append_inj' he rfl
      obtain rfl := List.singleton_inj.1 hc
      exact .inl ⟨l, rfl, before, rfl, hok⟩
  · rintro (⟨l, rfl, before, rfl, hok⟩ | ⟨rfl, rfl, hok⟩)
    · exact ⟨before, by simp, hok⟩
    · exact ⟨calls, rfl, hok⟩

theorem LastAdded.snoc (h : LastAdded calls job parent now later)
    (hc : ∀ now', c = .add now' job parent → ((built calls).add now' job parent).1 ≠ .ok ()) :
    LastAdded (calls ++ [c]) job parent now (later ++ [c]) := by
  refine ⟨added_snoc.2 (.inl ⟨later, rfl, h.added⟩), fun now' later' h' ↦ ?_⟩
  rcases added_snoc.1 h' with ⟨l, rfl, hl⟩ | ⟨-, hadd, hok⟩
  · have hle := h.last now' l hl
    simpa using hle
  · exact absurd hok (hc now' hadd)

theorem lastAdded_of_ok (h : ((built calls).add now job parent).1 = .ok ()) :
    LastAdded (calls ++ [.add now job parent]) job parent now [] :=
  ⟨added_snoc.2 (.inr ⟨rfl, rfl, h⟩), fun _ _ _ ↦ Nat.zero_le _⟩

/-- An edge has the time at which it was added last, and the flags that the calls since then give
it. -/
structure Replayed (calls : List Call) (job : String) (e : Edge) (later : List Call) : Prop where
  added : LastAdded calls job e.parent e.created later
  kept : .remove job ∉ later
  flags : (e.finished, e.hasError) = verdict job e.parent later

theorem exists_replayed (calls : List Call) (he : e ∈ (built calls).edgesOf job) :
    ∃ later, Replayed calls job e later := by
  -- the last call amends an edge that was there, or is the one that added it
  induction calls using List.reverseRecOn generalizing e with
  | nil => cases he
  | append_singleton calls c ih =>
    have hw := wellFormed_built calls
    rw [built_snoc, mem_edgesOf_after hw] at he
    rcases he with ⟨hne, e₀, he₀, rfl⟩ | ⟨now, rfl, hok, he⟩
    · obtain ⟨later, hr⟩ := ih he₀
      refine ⟨later ++ [c], ⟨hr.added.snoc ?_, ?_, ?_⟩⟩
      · rintro now' rfl hok
        have hlink : Link (built calls).entries job e₀.parent := link_iff.2 ⟨e₀, he₀, rfl⟩
        rw [add_of_link now' hlink] at hok
        cases hok
      · rw [List.mem_append, List.mem_singleton, not_or]
        exact ⟨hr.kept, fun h ↦ hne h.symm⟩
      · change (((c.verdict? job e₀.parent).getD _).1, ((c.verdict? job e₀.parent).getD _).2) =
          verdict job e₀.parent (later ++ [c])
        rw [verdict_snoc, hr.flags]
    · refine ⟨[], ⟨?_, List.not_mem_nil, ?_⟩⟩
      · rw [he]
        exact lastAdded_of_ok hok
      · rw [he]
        rfl

theorem Added.link (h : Added calls job parent now later) (hr : .remove job ∉ later) :
    Link (built calls).entries job parent := by
  induction calls using List.reverseRecOn generalizing later with
  | nil =>
    obtain ⟨before, he, -⟩ := h
    simp at he
  | append_singleton calls c ih =>
    have hw := wellFormed_built calls
    rw [built_snoc, link_iff]
    rcases added_snoc.1 h with ⟨l, rfl, hl⟩ | ⟨-, rfl, hok⟩
    · rw [List.mem_append, List.mem_singleton, not_or] at hr
      obtain ⟨e, he, hp⟩ := link_iff.1 (ih hl hr.1)
      exact ⟨c.amend job e, (mem_edgesOf_after hw).2 (.inl ⟨fun h ↦ hr.2 h.symm, e, he, rfl⟩), hp⟩
    · exact ⟨{ created := now, parent },
        (mem_edgesOf_after hw).2 (.inr ⟨now, rfl, hok, rfl⟩), rfl⟩

theorem LastAdded.unique {now' : Instant} {later' : List Call}
    (h : LastAdded calls job parent now later) (h' : LastAdded calls job parent now' later') :
    now = now' ∧ later = later' := by
  obtain ⟨before, he, -⟩ := h.added
  obtain ⟨before', he', -⟩ := h'.added
  have hlen : later.length = later'.length :=
    Nat.le_antisymm (h.last _ _ h'.added) (h'.last _ _ h.added)
  obtain ⟨-, hcons⟩ := List.append_inj' (he.symm.trans he') (by simp [hlen])
  obtain ⟨hcall, hlater⟩ := List.cons.inj hcons
  exact ⟨(Call.add.inj hcall).1, hlater⟩

theorem mem_edgesOf_iff : e ∈ g.edgesOf job ↔ ∃ es, g.edges job = .ok es ∧ e ∈ es := by
  unfold edges edgesOf
  cases g.entries.lookup job with
  | none => simp
  | some es => simp

theorem mustWait_eq_ok_true : g.mustWait job = .ok true ↔
    (∃ e ∈ g.edgesOf job, e.finished = false) ∧ ∀ e ∈ g.edgesOf job, e.hasError = false := by
  unfold mustWait edges edgesOf
  cases g.entries.lookup job with
  | none => simp [Except.map]
  | some es => simp [Except.map, List.any_eq_true]

theorem mustWait_iff_verdict (calls : List Call) (job : String) :
    (built calls).mustWait job = .ok true ↔
      (∃ parent now later, LastAdded calls job parent now later ∧ .remove job ∉ later ∧
        (verdict job parent later).1 = false) ∧
      ∀ parent now later, LastAdded calls job parent now later → .remove job ∉ later →
        (verdict job parent later).2 = false := by
  -- the edges and their replays are in one-to-one correspondence
  have hedge {parent : String} {now : Instant} {later : List Call}
      (hl : LastAdded calls job parent now later) (hr : .remove job ∉ later) :
      ∃ e ∈ (built calls).edgesOf job, (e.finished, e.hasError) = verdict job parent later := by
    obtain ⟨e, he, rfl⟩ := link_iff.1 (hl.added.link hr)
    obtain ⟨later', hrep⟩ := exists_replayed calls he
    obtain ⟨-, rfl⟩ := hl.unique hrep.added
    exact ⟨e, he, hrep.flags⟩
  rw [mustWait_eq_ok_true]
  constructor
  · rintro ⟨⟨e, he, hf⟩, hall⟩
    obtain ⟨later, hrep⟩ := exists_replayed calls he
    refine ⟨⟨e.parent, e.created, later, hrep.added, hrep.kept, ?_⟩, ?_⟩
    · rw [← hrep.flags]
      exact hf
    · intro parent now later hl hr
      obtain ⟨e, he, hflags⟩ := hedge hl hr
      rw [← hflags]
      exact hall e he
  · rintro ⟨⟨parent, now, later, hl, hr, hf⟩, hall⟩
    obtain ⟨e, he, hflags⟩ := hedge hl hr
    rw [← hflags] at hf
    refine ⟨⟨e, he, hf⟩, fun e he ↦ ?_⟩
    obtain ⟨later, hrep⟩ := exists_replayed calls he
    have herr := hall _ _ _ hrep.added hrep.kept
    rwa [← hrep.flags] at herr

/-- Every edge, after any calls on a new graph, was added at the time it tells, and its flags are
the last word of the calls since then; it is there unless the entry of its job was removed since. A
call changes the flags of an edge only if it is about that edge. An error is one of a finished
parent, and a job waits if one of its parents is pending by what was said last, and none has
failed. -/
theorem flags_replay (calls : List Call) (job : String) :
    (∀ es, (built calls).edges job = .ok es → ∀ e ∈ es,
      (∃ later, LastAdded calls job e.parent e.created later ∧ .remove job ∉ later ∧
        (e.finished, e.hasError) = verdict job e.parent later) ∧
      (∀ c, c ≠ .remove job → ∃ es', ((built calls).after c).edges job = .ok es' ∧
        c.amend job e ∈ es') ∧
      (e.hasError = true → e.finished = true)) ∧
    (∀ parent now later, Added calls job parent now later → .remove job ∉ later →
      ∃ es, (built calls).edges job = .ok es ∧ ∃ e ∈ es, e.parent = parent) ∧
    ((built calls).mustWait job = .ok true ↔
      (∃ parent now later, LastAdded calls job parent now later ∧ .remove job ∉ later ∧
        (verdict job parent later).1 = false) ∧
      ∀ parent now later, LastAdded calls job parent now later → .remove job ∉ later →
        (verdict job parent later).2 = false) := by
  have hw := wellFormed_built calls
  refine ⟨fun es hes e he ↦ ?_, fun parent now later ha hr ↦ ?_, mustWait_iff_verdict calls job⟩
  · have he : e ∈ (built calls).edgesOf job := mem_edgesOf_iff.2 ⟨es, hes, he⟩
    obtain ⟨later, hrep⟩ := exists_replayed calls he
    refine ⟨⟨later, hrep.added, hrep.kept, hrep.flags⟩, fun c hc ↦ ?_, fun herr ↦ ?_⟩
    · exact mem_edgesOf_iff.1 ((mem_edgesOf_after hw).2 (.inl ⟨hc, e, he, rfl⟩))
    · have hflags := hrep.flags
      have hv : (verdict job e.parent later).2 = true := by
        rw [← hflags]
        exact herr
      have hf := verdict_error later hv
      rwa [← hflags] at hf
  · obtain ⟨e, he, hp⟩ := link_iff.1 (ha.link hr)
    obtain ⟨es, hes, he⟩ := mem_edgesOf_iff.1 he
    exact ⟨es, hes, e, he, hp⟩

end JobEngine.DependencyGraph
