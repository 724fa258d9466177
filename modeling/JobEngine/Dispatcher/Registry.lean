import JobEngine.Job.Basic

namespace JobEngine

structure Registry where
  entries : List (String × Job) := []
deriving DecidableEq

namespace Registry

def get? (r : Registry) (id : String) : Option Job := r.entries.lookup id

def contains (r : Registry) (id : String) : Bool := (r.get? id).isSome

def erase (r : Registry) (id : String) : Registry := ⟨r.entries.filter (·.1 ≠ id)⟩

def insert (r : Registry) (j : Job) : Registry := ⟨(j.id, j) :: (r.erase j.id).entries⟩

def jobs (r : Registry) : List Job := r.entries.map (·.2)

def size (r : Registry) : Nat := r.entries.length

def listedBefore (a b : Job) : Bool :=
  a.start < b.start || (a.start ≤ b.start && a.id ≤ b.id)

def listed (r : Registry) : List Job := r.jobs.mergeSort listedBefore

end Registry

end JobEngine
