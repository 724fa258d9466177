import JobEngine.Engine.Clock

namespace JobEngine.Engine

variable {σ : Type}

def gracePeriod : Nat := 10 * 1000

def close (e : Engine σ) : Engine σ :=
  { e with
    dispatcher := e.dispatcher.close
    pollAt := none
    pruneAt := none
    checkpointAt := none }.settle

/-- Waits until no job runs any more, or until the grace period is over. -/
def windDown (e : Engine σ) : Engine σ :=
  if e.dispatcher.quiet then e
  else
    let deadline := e.time + gracePeriod
    let e := passTimers (!·.dispatcher.quiet) (deadline - 1) gracePeriod e.settle
    if e.dispatcher.quiet then e else { e with time := deadline }

def shutdown (e : Engine σ) : Except Error Unit × Engine σ :=
  let e := e.close
  let before := e.dispatcher.snapshot
  let e := { e with dispatcher := e.dispatcher.cancelAll }.windDown
  let (answer, files) := e.dispatcher.saveFinal before e.store e.files
  (answer, { e with files }.settle)

end JobEngine.Engine
