import JobEngine.Proofs.Dependency.Edges

namespace JobEngine.DependencyGraph

open Relation

variable {g : DependencyGraph} {m : Entries} {e : Edge} {a job parent : String}

def Closes (g : DependencyGraph) (job parent : String) : Prop :=
  parent = job ∨ TransGen (Link g.entries) parent job

/-- On its way to a job, a walk has no need of the edges of that job. -/
theorem walk_of_push (h : ReflTransGen (Link (push job e m)) a job) :
    ReflTransGen (Link m) a job := by
  induction h using ReflTransGen.head_induction_on with
  | refl => exact .refl
  | head hab _ ih =>
    rcases link_push.1 hab with hab | ⟨rfl, -⟩
    · exact ih.head hab
    · exact .refl

theorem hasCycle_push_iff (h : Acyclic m) :
    hasCycle (push job e m) job = true ↔ ReflTransGen (Link m) e.parent job := by
  rw [hasCycle_iff]
  constructor
  · intro hc
    rcases walk_push hc with hc | ⟨-, hc⟩
    · exact absurd hc (h job)
    · exact walk_of_push hc
  · intro hr
    have hlink : Link (push job e m) job e.parent := link_push.2 (.inr ⟨rfl, rfl⟩)
    exact .head' hlink (ReflTransGen.mono (fun _ _ hl ↦ link_push.2 (.inl hl)) _ _ hr)

theorem hasCycle_push_iff_closes (h : g.WellFormed) (now : Instant) :
    hasCycle (push job { created := now, parent } g.entries) job = true ↔ g.Closes job parent := by
  rw [hasCycle_push_iff h.acyclic, reflTransGen_iff_eq_or_transGen, Closes, eq_comm]

theorem any_parent_iff (g : DependencyGraph) (job parent : String) :
    ((g.entries.lookup job).getD []).any (·.parent = parent) = true ↔
      Link g.entries job parent := by
  rw [link_iff, List.any_eq_true]
  exact exists_congr fun e ↦ and_congr_right fun _ ↦ decide_eq_true_iff

theorem add_of_link (now : Instant) (hl : Link g.entries job parent) :
    g.add now job parent = (.error .duplicate, g) :=
  if_pos ((any_parent_iff g job parent).2 hl)

theorem add_of_closes (h : g.WellFormed) (now : Instant) (hl : ¬ Link g.entries job parent)
    (hc : g.Closes job parent) : g.add now job parent = (.error .circular, g) := by
  rw [add, if_neg (mt (any_parent_iff g job parent).1 hl)]
  simp only [(hasCycle_push_iff_closes h now).2 hc, ↓reduceIte, pop_push h.nonempty]

theorem add_of_not_closes (h : g.WellFormed) (now : Instant) (hl : ¬ Link g.entries job parent)
    (hc : ¬ g.Closes job parent) :
    g.add now job parent = (.ok (), ⟨push job { created := now, parent } g.entries⟩) := by
  rw [add, if_neg (mt (any_parent_iff g job parent).1 hl)]
  exact if_neg (mt (hasCycle_push_iff_closes h now).1 hc)

/-- The graph with an edge more, entry by entry. -/
structure Appended (g : DependencyGraph) (job : String) (e : Edge) (g' : DependencyGraph) :
    Prop where
  edges_job : g'.edges job = .ok (g.edgesOf job ++ [e])
  edges_of_ne : ∀ other ≠ job, g'.edges other = g.edges other
  keys : g'.entries.map (·.1) =
    if g.hasDependencies job then g.entries.map (·.1) else g.entries.map (·.1) ++ [job]

theorem hasDependencies_iff (g : DependencyGraph) (job : String) :
    g.hasDependencies job = true ↔ job ∈ g.entries.map (·.1) := by
  rw [hasDependencies, Option.isSome_iff_ne_none, Ne, List.lookup_eq_none_iff, List.mem_map]
  simp only [bne_iff_ne, not_forall, ne_eq, not_not, exists_prop, eq_comm (a := job)]

theorem appended_push (g : DependencyGraph) (job : String) (e : Edge) :
    Appended g job e ⟨push job e g.entries⟩ where
  edges_job := by rw [edges, lookup_push, if_pos rfl, edgesOf]
  edges_of_ne other ho := by rw [edges, lookup_push, if_neg ho, edges]
  keys := by simp only [keys_push, hasDependencies_iff]

def built (calls : List Call) : DependencyGraph := calls.foldl after {}

/-- Adding to a graph that any calls have made. A parent that the job has already is refused, and so
is one that is the job or reaches it along parents; every other is accepted. What is refused changes
nothing, and what is accepted gives one pending edge at the end. -/
theorem add_decides (calls : List Call) (now : Instant) (job parent : String) :
    (((built calls).add now job parent).1 = .error .duplicate ↔
      Link (built calls).entries job parent) ∧
    (((built calls).add now job parent).1 = .error .circular ↔
      ¬ Link (built calls).entries job parent ∧ (built calls).Closes job parent) ∧
    (((built calls).add now job parent).1 = .ok () ↔
      ¬ Link (built calls).entries job parent ∧ ¬ (built calls).Closes job parent) ∧
    (∀ c, ((built calls).add now job parent).1 = .error c →
      ((built calls).add now job parent).2 = built calls) ∧
    (((built calls).add now job parent).1 = .ok () →
      Appended (built calls) job ⟨now, parent, false, false⟩
        ((built calls).add now job parent).2) := by
  have h : (built calls).WellFormed := (wellFormed_default.afterAll List.nodup_nil calls).1
  by_cases hl : Link (built calls).entries job parent
  · simp [add_of_link now hl, hl]
  · by_cases hc : (built calls).Closes job parent
    · simp [add_of_closes h now hl hc, hl, hc]
    · simp [add_of_not_closes h now hl hc, hl, hc, appended_push]

end JobEngine.DependencyGraph
