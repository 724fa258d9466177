import JobEngine.Job.Work

namespace JobEngine

structure Job where
  id : String
  corpusId : String
  start : Instant
  update : Instant
  finished : Bool := false
  error : Option String := none
  numRestarts : UInt32 := 0
  work : Work
deriving DecidableEq

namespace Job

def kind (j : Job) : JobKind := j.work.kind

/-- The corpus the job reports as its own: for live attributes the alias, if there is one. -/
def reportedCorpus (j : Job) : String :=
  match j.work with
  | .liveAttributes aliased .. => aliased.getD j.corpusId
  | _ => j.corpusId

def ok (j : Job) : Bool := j.error.isNone && j.work.succeeded

def failed (j : Job) : Bool := j.finished && j.error.isSome

/-- Marks the job finished; an error or a result stays. -/
def finish (now : Instant) (j : Job) : Job := { j with finished := true, update := now }

def fail (now : Instant) (error : String) (j : Job) : Job :=
  { j with error := some error, finished := true, update := now }

def again (now : Instant) (j : Job) : Job :=
  { j with
    start := now, update := now, finished := false, error := none,
    numRestarts := j.numRestarts + 1 }

def touch (now : Instant) (j : Job) : Job := { j with update := now }

def create (id corpusId : String) (now : Instant) (work : Work) : Job :=
  { id, corpusId, start := now, update := now, work }

def description (j : Job) : String := j.kind.description

def outcome (j : Job) : String :=
  match j.error with
  | none => "Job finished without errors"
  | some e => "Job finished with error: " ++ e

end Job

end JobEngine
