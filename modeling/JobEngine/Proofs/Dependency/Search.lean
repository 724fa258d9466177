import JobEngine.Proofs.Dependency.Reachability
import Mathlib.Algebra.BigOperators.Group.Finset.Basic

namespace JobEngine.DependencyGraph

open Relation

variable {m unseen : Entries} {start job : String} {visited : Finset String}
  {pending : List String}

def edgeCount (m : Entries) : Nat := ∑ job ∈ (m.map (·.1)).toFinset, (parents m job).length

/-- The number of edges of the jobs that have not been visited. -/
def edgesBeyond (m : Entries) (visited : Finset String) : Nat :=
  ∑ job ∈ (m.map (·.1)).toFinset \ visited, (parents m job).length

theorem edgesBeyond_empty (m : Entries) : edgesBeyond m ∅ = edgeCount m := by
  rw [edgesBeyond, Finset.sdiff_empty, edgeCount]

theorem parents_of_notMem (h : job ∉ (m.map (·.1)).toFinset) : parents m job = [] := by
  refine parents_of_lookup_eq_none (List.lookup_eq_none_iff.2 fun x hx ↦ ?_)
  rw [bne_iff_ne]
  rintro rfl
  exact h (List.mem_toFinset.2 (List.mem_map_of_mem hx))

theorem edgesBeyond_insert (m : Entries) (h : job ∉ visited) :
    edgesBeyond m (insert job visited) + (parents m job).length = edgesBeyond m visited := by
  rw [edgesBeyond, Finset.sdiff_insert]
  by_cases hj : job ∈ (m.map (·.1)).toFinset
  · exact Finset.sum_erase_add _ _ (Finset.mem_sdiff.2 ⟨hj, h⟩)
  · rw [parents_of_notMem hj, Finset.erase_eq_of_notMem fun hm ↦ hj (Finset.mem_sdiff.1 hm).1]
    rfl

theorem reaches_cons (hj : job ≠ start) :
    reaches start unseen (job :: pending) =
      reaches start (without job unseen) (pending ++ parents unseen job) := by
  rw [reaches, if_neg hj]
  split
  · next h =>
    have hself : without job unseen = unseen := by
      refine List.filter_eq_self.2 fun x hx ↦ ?_
      have hne := bne_iff_ne.1 (List.lookup_eq_none_iff.1 h x hx)
      exact decide_eq_true hne.symm
    rw [hself, parents_of_lookup_eq_none h, List.append_nil]
  · next h => rw [parents_of_lookup h]

structure Search where
  visited : Finset String
  pending : List String

namespace Search

def begun (m : Entries) (start : String) : Search := ⟨∅, parents m start⟩

/-- Looks at the next job. The search has its answer, or it visits the job and goes on; only the
first visit puts the parents of the job at the end of the queue. -/
def next (m : Entries) (start : String) : Search → Bool ⊕ Search
  | ⟨_, []⟩ => .inl false
  | ⟨visited, job :: pending⟩ =>
    if job = start then .inl true
    else .inr ⟨insert job visited, if job ∈ visited then pending else pending ++ parents m job⟩

inductive Ends (m : Entries) (start : String) : Search → Nat → Bool → Prop
  | answer {s : Search} {b : Bool} : s.next m start = .inl b → Ends m start s 0 b
  | again {s s' : Search} {n : Nat} {b : Bool} :
      s.next m start = .inr s' → Ends m start s' n b → Ends m start s (n + 1) b

/-- What the search will answer: `reaches` goes on with the entries that have not been visited. -/
def outcome (m : Entries) (start : String) (s : Search) : Bool :=
  reaches start (m.filter (·.1 ∉ s.visited)) s.pending

/-- Bounds how many jobs the search still looks at: those in the queue, and the parents of those
that it may yet visit. It never visits the job that it started from. -/
def remaining (m : Entries) (start : String) (s : Search) : Nat :=
  s.pending.length + edgesBeyond m (insert start s.visited)

theorem without_unvisited (job : String) (visited : Finset String) (m : Entries) :
    without job (m.filter (·.1 ∉ visited)) = m.filter (·.1 ∉ insert job visited) := by
  rw [without, List.filter_filter]
  refine List.filter_congr fun x _ ↦ ?_
  rw [← Bool.decide_and]
  simp only [ne_eq, Finset.mem_insert, not_or]

theorem parents_unvisited (job : String) (visited : Finset String) (m : Entries) :
    parents (m.filter (·.1 ∉ visited)) job = if job ∈ visited then [] else parents m job := by
  rw [parents, Lookup.lookup_filter (· ∉ visited), ite_not]
  split <;> rfl

theorem outcome_visit (hj : job ≠ start) :
    outcome m start
        ⟨insert job visited, if job ∈ visited then pending else pending ++ parents m job⟩ =
      outcome m start ⟨visited, job :: pending⟩ := by
  rw [outcome, outcome, reaches_cons hj, without_unvisited, parents_unvisited]
  split
  · rw [List.append_nil]
  · rfl

theorem remaining_visit (hj : job ≠ start) :
    remaining m start
        ⟨insert job visited, if job ∈ visited then pending else pending ++ parents m job⟩ + 1 =
      remaining m start ⟨visited, job :: pending⟩ := by
  by_cases hv : job ∈ visited
  · simp only [remaining, if_pos hv, Finset.insert_eq_of_mem hv, List.length_cons]
    omega
  · have hnew : job ∉ insert start visited := by simp [hj, hv]
    have hedges := edgesBeyond_insert m hnew
    simp only [remaining, if_neg hv, Finset.insert_comm start job, List.length_append,
      List.length_cons]
    omega

theorem next_cases (m : Entries) (start : String) (s : Search) :
    s.next m start = .inl (s.outcome m start) ∨
      ∃ s', s.next m start = .inr s' ∧ s'.outcome m start = s.outcome m start ∧
        s'.remaining m start + 1 = s.remaining m start := by
  obtain ⟨visited, _ | ⟨job, pending⟩⟩ := s
  · rw [outcome, reaches]
    exact .inl rfl
  · by_cases hj : job = start
    · rw [outcome, reaches, if_pos hj]
      exact .inl (if_pos hj)
    · exact .inr ⟨_, if_neg hj, outcome_visit hj, remaining_visit hj⟩

theorem ends_outcome (m : Entries) (start : String) (s : Search) :
    ∃ n ≤ s.remaining m start, Ends m start s n (s.outcome m start) := by
  -- The queue may grow from one look to the next, but fewer jobs remain.
  induction hk : s.remaining m start using Nat.strong_induction_on generalizing s with
  | h k ih =>
    rcases next_cases m start s with hs | ⟨s', hs, hout, hrem⟩
    · exact ⟨0, Nat.zero_le k, .answer hs⟩
    · obtain ⟨n, hn, hends⟩ := ih (s'.remaining m start) (by omega) s' rfl
      rw [hout] at hends
      exact ⟨n + 1, by omega, .again hs hends⟩

theorem remaining_begun (m : Entries) (start : String) :
    (begun m start).remaining m start = edgeCount m := by
  have hedges := edgesBeyond_insert m (Finset.notMem_empty start)
  rw [edgesBeyond_empty] at hedges
  rw [remaining, ← hedges, begun, Nat.add_comm]

theorem outcome_begun (m : Entries) (start : String) :
    (begun m start).outcome m start = hasCycle m start := by
  simp [outcome, begun, hasCycle]

end Search

/-- The search from any job of any graph for a way back to that job. It ends, after at most as many
jobs as there are edges, and finds a way exactly if there is one. -/
theorem search_decides (m : Entries) (start : String) :
    (∃ n ≤ edgeCount m, (Search.begun m start).Ends m start n (hasCycle m start)) ∧
      (hasCycle m start = true ↔ TransGen (Link m) start start) := by
  refine ⟨?_, hasCycle_iff⟩
  have hends := Search.ends_outcome m start (.begun m start)
  rwa [Search.remaining_begun, Search.outcome_begun] at hends

example (created : Instant) :
    let edges (ids : List String) : List Edge := ids.map fun id ↦ { created, parent := id }
    let m : Entries := [("a", edges ["b", "b", "x"]), ("b", edges ["c"]), ("c", edges ["b"])]
    hasCycle m "a" = false ∧ hasCycle m "b" = true := by
  constructor <;> cbv

end JobEngine.DependencyGraph
