import JobEngine.Dispatcher.Runner
import JobEngine.Job.Codec

namespace JobEngine

/-- The job with some members of its written form replaced, if that can still be read. -/
def Job.patched? (j : Job) (patch : Members) : Option Job := ofJson? (.obj (j.toMembers ++ patch))

/-- One thing that a task does. Durations are in milliseconds. -/
inductive Instruction
  | sleep (ms : Nat)
  | sleepUnlessStopped (ms : Nat)
  | awaitStop
  | returnIfStopped
  | panic
  | touch
  | finish
  | fail (error : String)
  | complete (work : Work)
  | report (patch : Members)
  | revise (patch : Members)

structure Task where
  job : Job
  program : List Instruction
  logged : Bool := false

namespace Task

def sleptText (ms : UInt64) : String := s!"slept {ms.toNat} ms"

def failedOnRequest : String := "dummy job failed on request"

def dummyProgram (args : DummyArgs) : List Instruction :=
  [.sleepUnlessStopped args.durationMs.toNat,
    if args.fail then .fail failedOnRequest
    else .complete (.dummy args (some ⟨sleptText args.durationMs⟩))]

def dummy (j : Job) : Except Error Task :=
  match j.work with
  | .dummy args _ => .ok ⟨j, dummyProgram args, false⟩
  | _ => .error (.unsuitableRunner j.kind)

def instant (j : Job) : Task := ⟨j, [.finish], false⟩

def scripted (j : Job) (program : List Instruction) : Task := ⟨j, program, true⟩

end Task

namespace Runner

def dummy : Runner Task := ⟨.dummy, Task.dummy⟩

def instant (k : JobKind) : Runner Task := ⟨k, fun j ↦ .ok (Task.instant j)⟩

end Runner

def Runners.builtin : Runners Task := Runners.register {} .dummy

end JobEngine
