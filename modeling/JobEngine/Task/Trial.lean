import JobEngine.Task.Process

namespace JobEngine

/-- A process on its own and what it has reported, with times. -/
structure Trial where
  process : Process
  now : Instant
  time : Nat := 0
  stopAt : Option Nat := none
  updates : List (Nat × Job) := []

namespace Trial

def create (now : Instant) (id : String) (task : Task) (stopAt : Option Nat) : Trial :=
  { process := { ticket := 0, id, handle := 0, task }, now, stopAt }

def moment (t : Trial) (stopped : Bool) : Moment := ⟨t.now, t.time, stopped, true⟩

def turn (t : Trial) (stopped : Bool) : Trial :=
  let p := t.process.resume (t.moment stopped)
  { t with
    process := { p with mailbox := [] }
    updates := t.updates ++ p.mailbox.map (t.time, ·) }

def next? (t : Trial) (stopped : Bool) : Option Nat :=
  (t.process.wake?.toList ++ if stopped then [] else t.stopAt.toList).min?

def run : Nat → Bool → Trial → Trial
  | 0, _, t => t
  | n + 1, stopped, t =>
    let t := t.turn stopped
    if t.process.ending?.isSome then t
    else if t.process.runnable (t.moment stopped) then run n stopped t
    else
      match t.next? stopped with
      | none => t
      | some time => run n (stopped || t.stopAt.any (· ≤ time)) { t with time }

/-- Runs a task to its end. Every turn but the one in which it is told to stop carries out an
instruction. -/
def finish (t : Trial) : Trial := run (2 * t.process.task.program.length + 4) false t

end Trial

end JobEngine
