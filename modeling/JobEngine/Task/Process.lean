import JobEngine.Dispatcher.State
import JobEngine.Task.Basic

namespace JobEngine

inductive Pause
  | none
  | asleep (wake : Nat)
  | asleepUnlessStopped (wake : Nat)
  | awaitingStop
  | reporting (report : Job)
  | over (panicked : Bool)
deriving DecidableEq

structure Process where
  ticket : Nat
  id : String
  handle : Nat
  task : Task
  pause : Pause := .none
  mailbox : List Job := []
  accepted : List Bool := []

structure Moment where
  now : Instant
  time : Nat
  stopped : Bool
  listening : Bool

namespace Process

def mailboxCapacity : Nat := 32

def pausedBy (p : Process) (pause : Pause) : Process := { p with pause }

def answered (p : Process) (ok : Bool) : Process :=
  { p with accepted := p.accepted ++ [ok], pause := .none }

/-- Reports a state of the job. A report waits while the mailbox is full, and is not accepted if
nobody listens. -/
def offer (p : Process) (t : Moment) (j : Job) : Process :=
  if !t.listening then p.answered false
  else if p.mailbox.length < mailboxCapacity then
    { p with mailbox := p.mailbox ++ [j] }.answered true
  else p.pausedBy (.reporting j)

/-- Goes to sleep; sleeping for no time is no pause. -/
def sleepFor (p : Process) (ms : Nat) (pause : Pause) : Process :=
  if ms = 0 then p.pausedBy .none else p.pausedBy pause

def becomes (p : Process) (j : Job) : Process := { p with task.job := j }

def skipRest (p : Process) : Process := { p with task.program := [] }

def giveUp (p : Process) (t : Moment) : Process :=
  let p := p.skipRest.offer t (p.task.job.fail t.now Text.jobCancelled)
  if p.pause = .none then p.pausedBy (.over false) else p

def perform (p : Process) (t : Moment) : Instruction → Process
  | .sleep ms => p.sleepFor ms (.asleep (t.time + ms))
  | .sleepUnlessStopped ms =>
    if t.stopped then p.giveUp t else p.sleepFor ms (.asleepUnlessStopped (t.time + ms))
  | .awaitStop => p.pausedBy (if t.stopped then .none else .awaitingStop)
  | .returnIfStopped => p.pausedBy (if t.stopped then .over false else .none)
  | .panic => p.pausedBy (.over true)
  | .touch => p.offer t (p.task.job.touch t.now)
  | .finish => p.offer t (p.task.job.finish t.now)
  | .fail error => p.offer t (p.task.job.fail t.now error)
  | .complete work => p.offer t ({ p.task.job with work }.finish t.now)
  | .report patch =>
    match p.task.job.patched? patch with
    | some j => p.offer t j
    | none => p.pausedBy (.over true)
  | .revise patch =>
    match p.task.job.patched? patch with
    | some j => (p.becomes j).offer t j
    | none => p.pausedBy (.over true)

def run (t : Moment) : List Instruction → Process → Process
  | [], p => p.skipRest.pausedBy (.over false)
  | i :: rest, p =>
    let p := { p with task.program := rest }.perform t i
    if p.pause = .none then run t rest p else p

def proceed (p : Process) (t : Moment) : Process := run t p.task.program p

def runnable (p : Process) (t : Moment) : Bool :=
  match p.pause with
  | .none => true
  | .asleep wake => wake ≤ t.time
  | .asleepUnlessStopped wake => t.stopped || wake ≤ t.time
  | .awaitingStop => t.stopped
  | .reporting _ => !t.listening || p.mailbox.length < mailboxCapacity
  | .over _ => false

/-- What a process does when it gets its turn. Being told to stop counts before the end of a
sleep. -/
def resume (p : Process) (t : Moment) : Process :=
  if !p.runnable t then p
  else
    match p.pause with
    | .asleepUnlessStopped _ => if t.stopped then p.giveUp t else p.proceed t
    | .reporting j => (p.offer t j).proceed t
    | .over _ => p
    | _ => p.proceed t

def wake? (p : Process) : Option Nat :=
  match p.pause with
  | .asleep wake | .asleepUnlessStopped wake => some wake
  | _ => none

def ending? (p : Process) : Option Bool :=
  match p.pause with
  | .over panicked => some panicked
  | _ => none

end Process

end JobEngine
