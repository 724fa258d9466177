import JobEngine.Config.Basic
import JobEngine.Dependency.Graph
import JobEngine.Dispatcher.Registry
import JobEngine.Dispatcher.Runner
import JobEngine.Queue

/-!
# Dispatcher state

The dispatcher owns the registry, the queue of pending jobs and the dependency graph. A fixed
number of slots bounds how many attempts run at the same time: a slot is taken before an entry of
the queue is looked at, and given back when the entry is not launched or its attempt ends.

Every submission has a ticket. The handle of a job is the switch by which its attempt is told to
stop; a job has one while it is queued or running.
-/

namespace JobEngine

namespace Text

def cancelledBeforeStart : String := "cancelled before start"

def jobCancelled : String := "job cancelled"

def parentJobFailed : String := "parent job failed"

def noCompletionReported : String := "job exited without reporting completion"

def taskPanicked : String := "job task panicked"

end Text

structure Pending (τ : Type) where
  ticket : Nat
  task : τ
  job : Job
deriving DecidableEq

structure Attempt where
  ticket : Nat
  id : String
  handle : Nat
  last : Job
deriving DecidableEq

structure Launch (τ : Type) where
  attempt : Attempt
  task : τ
deriving DecidableEq

inductive LoopState
  | idle
  | active
  | ended
deriving DecidableEq

structure Dispatcher (τ : Type) where
  config : JobsConfig
  runners : Runners τ
  registry : Registry := {}
  detached : Registry := {}
  /-- The handles of queued and running jobs. -/
  handles : List (String × Nat) := []
  /-- The handles that have been used to stop an attempt. -/
  cancelled : List Nat := []
  queue : Queue (Pending τ) := {}
  deps : DependencyGraph := {}
  freeSlots : Nat
  running : Nat := 0
  attempts : List Attempt := []
  wakeup : Bool := false
  stops : List String := []
  loop : LoopState := .idle
  closing : Bool := false
  /-- Attempts that nobody has begun yet. -/
  launches : List (Launch τ) := []
  /-- Jobs that have ended and wait to be reported. -/
  notices : List Job := []
  fresh : Nat := 0

inductive Readiness
  | ready
  | waiting
  | parentFailed
deriving DecidableEq

namespace Dispatcher

variable {τ : Type}

def capacity (d : Dispatcher τ) : Nat := max d.config.maxConcurrent.toNat 1

def create (processors : UInt64) (config : JobsConfig) (runners : Runners τ) : Dispatcher τ :=
  let config := config.normalize processors
  { config, runners, freeSlots := max config.maxConcurrent.toNat 1 }

def maxCapacity : Nat := 2305843009213693951

def admits (processors : UInt64) (config : JobsConfig) : Bool :=
  (config.normalize processors).maxConcurrent.toNat ≤ maxCapacity

/-- The handle of a job, made now if there is none. -/
def handleFor (d : Dispatcher τ) (id : String) : Nat × Dispatcher τ :=
  match d.handles.lookup id with
  | some h => (h, d)
  | none => (d.fresh, { d with handles := (id, d.fresh) :: d.handles, fresh := d.fresh + 1 })

def dropHandle (d : Dispatcher τ) (id : String) : Dispatcher τ :=
  { d with handles := d.handles.filter (·.1 ≠ id) }

def isCancelled (d : Dispatcher τ) (handle : Nat) : Bool := d.cancelled.contains handle

def readiness (d : Dispatcher τ) (id : String) : Readiness :=
  match d.deps.hasFailedParent id with
  | .error _ => .ready
  | .ok true => .parentFailed
  | .ok false =>
    match d.deps.mustWait id with
    | .ok true => .waiting
    | _ => .ready

/-- Records the state in which a job ends, tells the jobs that wait for it and reports it. The
handle goes first, so that whoever sees the job ended may run it again. -/
def finalize (d : Dispatcher τ) (j : Job) : Dispatcher τ :=
  let d := d.dropHandle j.id
  { d with
    registry := d.registry.insert j
    deps := d.deps.setParentFinished j.id j.error.isSome
    notices := d.notices ++ [j] }

def giveBack (d : Dispatcher τ) : Dispatcher τ := { d with freeSlots := d.freeSlots + 1 }

structure Stats where
  queued : Nat := 0
  running : Nat := 0
  finished : Nat := 0
  failed : Nat := 0
deriving DecidableEq

def stats (d : Dispatcher τ) : Stats where
  queued := d.queue.size
  running := d.running
  finished := d.registry.jobs.countP fun j ↦ j.finished && j.error.isNone
  failed := d.registry.jobs.countP fun j ↦ j.finished && j.error.isSome

end Dispatcher

end JobEngine
