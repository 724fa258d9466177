import JobEngine.Dispatcher.State

namespace JobEngine.Dispatcher

variable {τ : Type}

def launch (d : Dispatcher τ) (now : Instant) (p : Pending τ) (handle : Nat) : Dispatcher τ :=
  let started := p.job.touch now
  let attempt : Attempt := ⟨p.ticket, p.job.id, handle, started⟩
  { d with
    registry := d.registry.insert started
    running := d.running + 1
    attempts := d.attempts ++ [attempt]
    launches := d.launches ++ [⟨attempt, p.task⟩] }

/-- Looks at the first entry of the queue, and says whether that ended its job. None where there is
no free slot or no entry. -/
def look (d : Dispatcher τ) (now : Instant) : Option (Dispatcher τ × Bool) :=
  if d.freeSlots = 0 then none
  else
    let d := { d with freeSlots := d.freeSlots - 1 }
    match d.queue.dequeue with
    | none => none
    | some (p, queue) =>
      let (handle, d) := { d with queue }.handleFor p.job.id
      if d.isCancelled handle then
        some ((d.finalize (p.job.fail now Text.cancelledBeforeStart)).giveBack, true)
      else
        match d.readiness p.job.id with
        | .ready => some (d.launch now p handle, false)
        | .waiting => some ({ d with queue := d.queue.enqueue p }.giveBack, false)
        | .parentFailed => some ((d.finalize (p.job.fail now Text.parentJobFailed)).giveBack, true)

def lookAll (now : Instant) : Nat → Dispatcher τ → Bool → Dispatcher τ × Bool
  | 0, d, settled => (d, settled)
  | n + 1, d, settled =>
    match d.look now with
    | none => (d, settled)
    | some (d, b) => lookAll now n d (settled || b)

/-- One pass: every entry present at its start is looked at once at most. A job that it ended may
have unblocked others, so another pass follows. -/
def dispatchReady (d : Dispatcher τ) (now : Instant) : Dispatcher τ :=
  let (d, settled) := lookAll now d.queue.size d false
  if settled then { d with wakeup := true } else d

def endAttempt (d : Dispatcher τ) (a : Attempt) (terminal : Job) : Dispatcher τ :=
  let d := { d with
    running := d.running - 1
    attempts := d.attempts.filter (·.ticket ≠ a.ticket) }
  { (d.finalize terminal).giveBack with wakeup := true }

def attempt? (d : Dispatcher τ) (ticket : Nat) : Option Attempt :=
  d.attempts.find? (·.ticket = ticket)

def noteLast (d : Dispatcher τ) (ticket : Nat) (j : Job) : Dispatcher τ :=
  { d with
    attempts := d.attempts.map fun a ↦ if a.ticket = ticket then { a with last := j } else a }

/-- An attempt reports a state of its job. States of other jobs are ignored; the first finished
one ends the attempt, and nobody listens after that. -/
def report (d : Dispatcher τ) (ticket : Nat) (j : Job) : Dispatcher τ :=
  match d.attempt? ticket with
  | none => d
  | some a =>
    if j.id ≠ a.id then d
    else if j.finished then d.endAttempt a j
    else { d with registry := d.registry.insert j }.noteLast ticket j

/-- The task of an attempt is over. If it reported no end, its last state fails. -/
def taskOver (d : Dispatcher τ) (now : Instant) (ticket : Nat) (panicked : Bool) : Dispatcher τ :=
  match d.attempt? ticket with
  | none => d
  | some a =>
    d.endAttempt a
      (a.last.fail now (if panicked then Text.taskPanicked else Text.noCompletionReported))

/-- Handles a stop request: the job's handle is used, and the first of its entries in the queue
ends at once. A job without a handle is not active. -/
def handleStop (d : Dispatcher τ) (now : Instant) (id : String) : Dispatcher τ :=
  match d.handles.lookup id with
  | none => d
  | some h =>
    let d := { d with cancelled := h :: d.cancelled, wakeup := true }
    match d.queue.remove (·.job.id = id) with
    | none => d
    | some (p, queue) => { d with queue }.finalize (p.job.fail now Text.cancelledBeforeStart)

def stopCapacity : Nat := 64

def requestStop (d : Dispatcher τ) (id : String) : Except Error Unit × Dispatcher τ :=
  if d.loop = .ended then (.error (.stopRefused .closed), d)
  else if stopCapacity ≤ d.stops.length then (.error (.stopRefused .full), d)
  else (.ok (), { d with stops := d.stops ++ [id] })

def start (d : Dispatcher τ) (now : Instant) : Dispatcher τ :=
  match d.loop with
  | .idle => { d with loop := .active }.dispatchReady now
  | _ => d

/-- The next turn of the loop, none while it is parked. It ends once shutdown has begun, and
handles stop requests before it sees to a wake-up. -/
def turn (d : Dispatcher τ) (now : Instant) : Option (Dispatcher τ) :=
  match d.loop with
  | .active =>
    if d.closing then some { d with loop := .ended, stops := [] }
    else
      match d.stops with
      | id :: stops => some (({ d with stops }.handleStop now id).dispatchReady now)
      | [] => if d.wakeup then some ({ d with wakeup := false }.dispatchReady now) else none
  | _ => none

def takeTurns (now : Instant) : Nat → Dispatcher τ → Dispatcher τ
  | 0, d => d
  | n + 1, d =>
    match d.turn now with
    | some d => takeTurns now n d
    | none => d

/-- Lets the loop take turns until it parks. A turn uses up a stop request, or a wake-up that only
the end of a queued job renews, so there are no more turns than counted here. -/
def runLoop (d : Dispatcher τ) (now : Instant) : Dispatcher τ :=
  takeTurns now (2 * d.stops.length + d.queue.size + 2) d

def delayNext (d : Dispatcher τ) : Except Error Unit × Dispatcher τ :=
  match d.queue.delayNext with
  | none => (.error .emptyQueue, d)
  | some queue => (.ok (), { d with queue })

end JobEngine.Dispatcher
