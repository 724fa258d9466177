import JobEngine.Dispatcher.State
import JobEngine.Store.Basic

namespace JobEngine.Dispatcher

variable {τ : Type}

/-- Takes up the jobs of an earlier run: finished ones are registered, the others detached. -/
def takeUp (d : Dispatcher τ) (jobs : List Job) : Dispatcher τ :=
  jobs.foldl (fun d j ↦
    if j.finished then { d with registry := d.registry.insert j }
    else { d with detached := d.detached.insert j }) d

def loadState (d : Dispatcher τ) (s : Store) (fs : FileSystem) : Nat × Dispatcher τ :=
  let d := d.takeUp (s.loadOrEmpty fs)
  (d.detached.size, d)

def clearDetached (d : Dispatcher τ) (id : String) : Bool × Dispatcher τ :=
  (d.detached.contains id, { d with detached := d.detached.erase id })

def snapshot (d : Dispatcher τ) : List Job :=
  d.registry.listed ++ d.detached.listed.filter fun j ↦ !d.registry.contains j.id

def checkpoint (d : Dispatcher τ) (s : Store) (fs : FileSystem) : Except Error Unit × FileSystem :=
  s.save d.snapshot fs

def close (d : Dispatcher τ) : Dispatcher τ := { d with closing := true }

def cancelAll (d : Dispatcher τ) : Dispatcher τ :=
  { d with cancelled := d.handles.map (·.2) ++ d.cancelled }

/-- The slots that shutdown waits for: all of them, as far as they can be counted in 32 bits. -/
def slotsAwaited (d : Dispatcher τ) : Nat := min d.capacity (UInt32.size - 1)

def quiet (d : Dispatcher τ) : Bool := d.slotsAwaited ≤ d.freeSlots

def interrupted (j : Job) : Bool :=
  j.error = some Text.jobCancelled || j.error = some Text.noCompletionReported

/-- What to save of a job that was in a snapshot: how it has ended since, unless it was
interrupted. -/
def settle (d : Dispatcher τ) (j : Job) : Job :=
  match d.registry.get? j.id with
  | some current => if current.finished && !interrupted current then current else j
  | none => j

def saveFinal (d : Dispatcher τ) (before : List Job) (s : Store) (fs : FileSystem) :
    Except Error Unit × FileSystem := s.save (before.map d.settle) fs

end JobEngine.Dispatcher
