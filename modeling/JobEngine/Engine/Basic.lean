import JobEngine.Dispatcher.Dispatch
import JobEngine.Dispatcher.Persistence
import JobEngine.Dispatcher.Retention
import JobEngine.Notification.Service
import JobEngine.Task.Process

/-!
# Engine

The dispatcher together with the processes of its attempts and what surrounds it: files, the wall
clock, a notification service and timers. Whatever can go on stands in a line and gets its turn,
first come first served; `Engine.settle` gives turns until nobody is left in line.

The timers have a clock of their own, in milliseconds. Turns take no time on it.
-/

namespace JobEngine

inductive Activity
  | loop
  | process (ticket : Nat)
  | listener (ticket : Nat)
  | notice (job : Job)
deriving DecidableEq

structure Engine (σ : Type) where
  dispatcher : Dispatcher Task
  store : Store
  files : FileSystem := {}
  service : Service σ
  world : σ
  muted : Bool := false
  now : Instant
  time : Nat := 0
  processes : List Process := []
  line : List Activity := []
  pollAt : Option Nat := none
  pruneAt : Option Nat := none
  checkpointAt : Option Nat := none
  started : List String := []
  reports : List (String × Bool) := []
  ended : Nat := 0

namespace Engine

variable {σ : Type}

def process? (e : Engine σ) (ticket : Nat) : Option Process :=
  e.processes.find? (·.ticket = ticket)

def moment (e : Engine σ) (p : Process) : Moment where
  now := e.now
  time := e.time
  stopped := e.dispatcher.isCancelled p.handle
  listening := (e.dispatcher.attempt? p.ticket).isSome

def begin (l : Launch Task) : Process where
  ticket := l.attempt.ticket
  id := l.attempt.id
  handle := l.attempt.handle
  task := l.task

def runnable (e : Engine σ) : List Activity :=
  (e.processes.filter fun p ↦ p.runnable (e.moment p)).map (.process ·.ticket) ++
  (e.processes.filter fun p ↦ p.mailbox ≠ [] || p.ending?.isSome).map (.listener ·.ticket)

def activities (l : Launch Task) : List Activity :=
  [.process l.attempt.ticket, .listener l.attempt.ticket]

/-- Puts in line whatever can go on and is not there yet. -/
def enlist (e : Engine σ) : Engine σ :=
  let d := e.dispatcher
  let line := e.line ++ e.runnable.filter (!e.line.contains ·) ++ d.launches.flatMap activities ++
    d.notices.map .notice
  { e with
    dispatcher := { d with launches := [], notices := [] }
    processes := e.processes ++ d.launches.map begin
    line := if (d.turn e.now).isSome && !line.contains .loop then line ++ [.loop] else line }

def runProcess (e : Engine σ) (ticket : Nat) : Engine σ :=
  match e.process? ticket with
  | none => e
  | some p =>
    let started := if p.pause = .none then [p.id] else []
    let p := p.resume (e.moment p)
    let reports := if p.task.logged then p.accepted.map fun ok ↦ (p.id, ok) else []
    { e with
      processes := e.processes.filter (·.ticket ≠ ticket) ++ [{ p with accepted := [] }]
      started := e.started ++ started
      reports := e.reports ++ reports }

/-- The mailbox of a process is emptied. A process that is over is seen off. -/
def listen (e : Engine σ) (ticket : Nat) : Engine σ :=
  match e.process? ticket with
  | none => e
  | some p =>
    let d := p.mailbox.foldl (fun d j ↦ d.report ticket j) e.dispatcher
    match p.ending? with
    | some panicked =>
      { e with
        dispatcher := d.taskOver e.now ticket panicked
        processes := e.processes.filter (·.ticket ≠ ticket) }
    | none =>
      { e with
        dispatcher := d
        processes := e.processes.map fun p ↦
          if p.ticket = ticket then { p with mailbox := [] } else p }

def pollPeriod : Nat := 1000

/-- The loop gets its turn; after that it waits for the fallback pass at the latest. -/
def runLoop (e : Engine σ) : Engine σ :=
  let d := e.dispatcher.runLoop e.now
  { e with
    dispatcher := d
    pollAt := if d.loop = .active then some (e.time + pollPeriod) else none }

def report (e : Engine σ) (j : Job) : Engine σ :=
  let e := { e with ended := e.ended + 1 }
  if e.muted then e
  else
    let (_, service, world) := e.service.jobFinished j e.world
    { e with service, world }

def take (e : Engine σ) : Activity → Engine σ
  | .loop => e.runLoop
  | .process ticket => e.runProcess ticket
  | .listener ticket => e.listen ticket
  | .notice j => e.report j

def giveTurns : Nat → Engine σ → Engine σ
  | 0, e => e
  | n + 1, e =>
    match e.line with
    | [] => e
    | a :: line => giveTurns n ({ e with line }.take a).enlist

def total {α : Type} (f : α → Nat) (xs : List α) : Nat := xs.foldl (fun n x ↦ n + f x) 0

/-- A bound of the turns that can be needed before nobody is left in line: no instruction is
carried out twice, and no report, attempt or job ends twice. -/
def workload (e : Engine σ) : Nat :=
  let size (t : Task) := t.program.length + 1
  let d := e.dispatcher
  16 * (e.line.length + d.stops.length + d.notices.length + 1 +
    total (fun p ↦ size p.task + p.mailbox.length + 1) e.processes +
    total (fun l ↦ size l.task + 1) d.launches + total (fun p ↦ size p.task + 1) d.queue.toList)

def settle (e : Engine σ) : Engine σ :=
  let e := e.enlist
  e.giveTurns e.workload

end Engine

end JobEngine
