import JobEngine.Dispatcher.State

namespace JobEngine.Dispatcher

variable {τ : Type}

/-- Removes a finished job. Gives the job, if there is one, and whether it was removed. -/
def clearIfFinished (d : Dispatcher τ) (id : String) : (Option Job × Bool) × Dispatcher τ :=
  match d.registry.get? id with
  | none => ((none, false), d)
  | some j =>
    if j.finished then
      ((some j, true), { d with registry := d.registry.erase id, deps := (d.deps.remove id).2 })
    else ((some j, false), d)

def forget (d : Dispatcher τ) (id : String) : Dispatcher τ :=
  { d with registry := d.registry.erase id, deps := (d.deps.remove id).2 }

def expired (d : Dispatcher τ) (cutoff : Instant) : List Job :=
  d.registry.jobs.filter fun j ↦ j.finished && j.start < cutoff

def maxAge : Nat := 9223372036854775807 * 1000000

def cutoff? (now : Instant) (age : Int) : Option Instant :=
  if age.natAbs ≤ maxAge then now.shift? (-age) else none

def pruneBefore (d : Dispatcher τ) (cutoff : Instant) : Nat × Dispatcher τ :=
  let jobs := d.expired cutoff
  (jobs.length, jobs.foldl (fun d j ↦ d.forget j.id) d)

/-- Removes the finished jobs that started longer ago than an age in nanoseconds and counts them.
None where that age cannot be told. -/
def pruneOlder (d : Dispatcher τ) (now : Instant) (age : Int) : Option (Nat × Dispatcher τ) :=
  (cutoff? now age).map d.pruneBefore

def prune (d : Dispatcher τ) (now : Instant) (age : Int) : Option (Nat × Dispatcher τ) :=
  d.pruneOlder now (age * nanosPerSecond)

def greatestWord : Nat := 9223372036854775807

/-- A retention in seconds. Hours that fit no signed word are cut down to what fits one in
seconds. -/
def retentionSeconds (hours : UInt64) : Int :=
  (if hours.toNat ≤ greatestWord then hours.toNat else greatestWord / 3600) * 3600

def runPrune (d : Dispatcher τ) (now : Instant) (hours : UInt64) : Option (Nat × Dispatcher τ) :=
  if hours = 0 then some (0, d) else d.prune now (retentionSeconds hours)

end JobEngine.Dispatcher
