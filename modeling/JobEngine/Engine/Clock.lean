import JobEngine.Config.Maintenance
import JobEngine.Engine.Basic

namespace JobEngine.Engine

variable {σ : Type}

def maintenance (e : Engine σ) : Maintenance := .ofJobs e.dispatcher.config

def nextAfter (timer : Option Nat) (seconds : UInt64) : Option Nat := do
  return (← timer) + (← Maintenance.period? seconds)

def act {α : Type} (e : Engine σ) (f : Dispatcher Task → α × Dispatcher Task) : α × Engine σ :=
  let (a, dispatcher) := f e.dispatcher
  (a, { e with dispatcher }.settle)

def change (e : Engine σ) (f : Dispatcher Task → Dispatcher Task) : Engine σ :=
  { e with dispatcher := f e.dispatcher }.settle

/-- Whether maintenance goes on after the start: not once shutdown has begun, and not with a period
that no clock can hold. -/
def maintained (e : Engine σ) : Bool := !e.dispatcher.closing && e.maintenance.feasible

def start (e : Engine σ) : Engine σ :=
  match e.dispatcher.loop with
  | .idle =>
    let timers : Engine σ :=
      if e.maintained then
        { e with
          pruneAt := nextAfter (some e.time) e.maintenance.pruneSecs
          checkpointAt := nextAfter (some e.time) e.maintenance.checkpointSecs }
      else e
    { timers with dispatcher := e.dispatcher.start e.now }.runLoop.settle
  | _ => e

def checkpoint (e : Engine σ) : Except Error Unit × Engine σ :=
  let (answer, files) := e.dispatcher.checkpoint e.store e.files
  (answer, { e with files })

def isDue (e : Engine σ) (timer : Option Nat) : Bool := timer.any (· ≤ e.time)

/-- Prunes. A retention that reaches back too far to be told ends all maintenance. -/
def pruneIfDue (e : Engine σ) : Engine σ :=
  if e.isDue e.pruneAt then
    match e.dispatcher.runPrune e.now e.maintenance.retentionHours with
    | some (_, dispatcher) =>
      { e with dispatcher, pruneAt := nextAfter e.pruneAt e.maintenance.pruneSecs }
    | none => { e with pruneAt := none, checkpointAt := none }
  else e

def checkpointIfDue (e : Engine σ) : Engine σ :=
  if e.isDue e.checkpointAt then
    { e.checkpoint.2 with checkpointAt := nextAfter e.checkpointAt e.maintenance.checkpointSecs }
  else e

def pollIfDue (e : Engine σ) : Engine σ :=
  if e.isDue e.pollAt then { e with dispatcher.wakeup := true } else e

def nextTimer? (e : Engine σ) : Option Nat :=
  ([e.pruneAt, e.checkpointAt, e.pollAt].filterMap id ++ e.processes.filterMap (·.wake?)).min?

def arrive (e : Engine σ) (time : Nat) : Engine σ :=
  { e with time }.pruneIfDue.checkpointIfDue.pollIfDue.settle

def passTimers (go : Engine σ → Bool) (target : Nat) : Nat → Engine σ → Engine σ
  | 0, e => e
  | n + 1, e =>
    if go e then
      match e.nextTimer? with
      | some time => if time ≤ target then passTimers go target n (e.arrive time) else e
      | none => e
    else e

/-- Lets the timers' clock run on to some time. No timer is passed twice at the same time, so there
are no more stops than milliseconds. -/
def runTo (e : Engine σ) (target : Nat) : Engine σ :=
  { passTimers (fun _ ↦ true) target (target - e.time + 1) e with time := target }

def shiftClock (e : Engine σ) (ms : Nat) : Engine σ :=
  { e with now := (e.now.shift? (ms * 1000000)).getD e.now }

/-- Lets some milliseconds pass. The wall clock moves first. -/
def advance (e : Engine σ) (ms : Nat) : Engine σ := (e.shiftClock ms).runTo (e.time + ms)

end JobEngine.Engine
