import JobEngine.Error

namespace JobEngine

structure Edge where
  created : Instant
  parent : String
  finished : Bool := false
  hasError : Bool := false
deriving DecidableEq

def Edge.refresh (status : String → Option (Bool × Bool)) (e : Edge) : Edge :=
  match status e.parent with
  | none => e
  | some (finished, hasError) => { e with finished, hasError := finished && hasError }

structure DependencyGraph where
  entries : List (String × List Edge) := []
deriving DecidableEq

namespace DependencyGraph

abbrev Entries := List (String × List Edge)

def push (job : String) (e : Edge) : Entries → Entries
  | [] => [(job, [e])]
  | (j, es) :: rest => if j = job then (j, es ++ [e]) :: rest else (j, es) :: push job e rest

def pop (job : String) : Entries → Entries
  | [] => []
  | (j, es) :: rest =>
    if j = job then (if es.dropLast = [] then rest else (j, es.dropLast) :: rest)
    else (j, es) :: pop job rest

def without (job : String) (m : Entries) : Entries := m.filter (·.1 ≠ job)

def parents (m : Entries) (job : String) : List String :=
  ((m.lookup job).getD []).map (·.parent)

def weight : Entries → Nat
  | [] => 0
  | (_, es) :: rest => es.length + 1 + weight rest

theorem weight_without_le (job : String) (m : Entries) : weight (without job m) ≤ weight m := by
  induction m with
  | nil => exact Nat.le_refl _
  | cons a m ih =>
    obtain ⟨j, es⟩ := a
    simp only [without, List.filter_cons, weight] at ih ⊢
    split
    · simp only [weight]
      omega
    · omega

theorem weight_without_lt {job : String} {m : Entries} {es : List Edge}
    (h : m.lookup job = some es) : weight (without job m) + es.length < weight m := by
  induction m with
  | nil => simp at h
  | cons a m ih =>
    obtain ⟨j, fs⟩ := a
    by_cases hj : job = j
    · subst hj
      simp only [List.lookup_cons, BEq.rfl, Option.some.injEq] at h
      subst h
      have hle := weight_without_le job m
      simp only [without, List.filter_cons, ne_eq, not_true_eq_false, decide_false,
        Bool.false_eq_true, ↓reduceIte, weight] at hle ⊢
      omega
    · have hb : (job == j) = false := by simpa using hj
      simp only [List.lookup_cons, hb] at h
      have hlt := ih h
      have hj' : j ≠ job := fun e ↦ hj e.symm
      simp only [without, List.filter_cons, ne_eq, hj', not_false_eq_true, decide_true,
        ↓reduceIte, weight] at hlt ⊢
      omega

/-- Walks breadth first along parents, each job once, until it gets to `start` or is out of jobs.
The walk owns the entries of the jobs it has not met yet. -/
def reaches (start : String) (unseen : Entries) : List String → Bool
  | [] => false
  | job :: pending =>
    if job = start then true
    else
      match _h : unseen.lookup job with
      | none => reaches start unseen pending
      | some es => reaches start (without job unseen) (pending ++ es.map (·.parent))
termination_by pending => weight unseen + pending.length
decreasing_by
  · simp
  · have h := weight_without_lt _h
    simp only [List.length_append, List.length_map, List.length_cons]
    omega

def hasCycle (m : Entries) (start : String) : Bool := reaches start m (parents m start)

/-- Records that a job waits for a parent. An edge that closes a cycle is taken away again. -/
def add (g : DependencyGraph) (now : Instant) (job parent : String) :
    Except DependencyError Unit × DependencyGraph :=
  if ((g.entries.lookup job).getD []).any (·.parent = parent) then (.error .duplicate, g)
  else
    let m := push job { created := now, parent } g.entries
    if hasCycle m job then (.error .circular, ⟨pop job m⟩) else (.ok (), ⟨m⟩)

def mapEdges (f : Edge → Edge) (g : DependencyGraph) : DependencyGraph :=
  ⟨g.entries.map fun (j, es) ↦ (j, es.map f)⟩

def setParentFinished (g : DependencyGraph) (parent : String) (hasError : Bool) :
    DependencyGraph :=
  g.mapEdges fun e ↦ if e.parent = parent then { e with finished := true, hasError } else e

def reopenParent (g : DependencyGraph) (parent : String) : DependencyGraph :=
  g.mapEdges fun e ↦
    if e.parent = parent then { e with finished := false, hasError := false } else e

def refreshEdges (g : DependencyGraph) (job : String) (status : String → Option (Bool × Bool)) :
    DependencyGraph :=
  ⟨g.entries.map fun (j, es) ↦ (j, if j = job then es.map (Edge.refresh status) else es)⟩

def edges (g : DependencyGraph) (job : String) : Except DependencyError (List Edge) :=
  match g.entries.lookup job with
  | some es => .ok es
  | none => .error .missing

def hasFailedParent (g : DependencyGraph) (job : String) : Except DependencyError Bool :=
  (g.edges job).map (·.any (·.hasError))

/-- Whether the job still has to wait; a failed parent ends the wait. -/
def mustWait (g : DependencyGraph) (job : String) : Except DependencyError Bool :=
  (g.edges job).map fun es ↦ es.any (!·.finished) && !es.any (·.hasError)

def hasDependencies (g : DependencyGraph) (job : String) : Bool :=
  (g.entries.lookup job).isSome

def remove (g : DependencyGraph) (job : String) : Option (List Edge) × DependencyGraph :=
  (g.entries.lookup job, ⟨without job g.entries⟩)

def size (g : DependencyGraph) : Nat := g.entries.length

end DependencyGraph

end JobEngine
