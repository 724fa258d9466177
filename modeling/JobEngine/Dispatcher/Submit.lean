import JobEngine.Dispatcher.State

namespace JobEngine.Dispatcher

variable {τ : Type}

def enqueue (d : Dispatcher τ) (task : τ) (j : Job) : Dispatcher τ :=
  let (_, d) := d.handleFor j.id
  { d with
    registry := d.registry.insert j
    queue := d.queue.enqueue ⟨d.fresh, task, j⟩
    fresh := d.fresh + 1
    wakeup := true }

/-- Submits a job that may start only after a registered parent has finished. Nobody else would
flag the edge to a parent that has finished already. -/
def enqueueAfter (d : Dispatcher τ) (now : Instant) (task : τ) (j : Job) (parent : String) :
    Except Error Unit × Dispatcher τ :=
  match d.registry.get? parent with
  | none => (.error (.notFound "job" parent), d)
  | some p =>
    match d.deps.add now j.id parent with
    | (.error e, deps) => (.error (.dependency e), { d with deps })
    | (.ok _, deps) =>
      let deps := if p.finished then deps.setParentFinished parent p.error.isSome else deps
      (.ok (), { d with deps }.enqueue task j)

def allowsRestart (d : Dispatcher τ) (j : Job) : Except Error Unit :=
  if j.finished && j.error.isNone then .error (.restartRefused j.id .succeeded)
  else if d.config.maxRestarts ≤ j.numRestarts then
    .error (.restartRefused j.id (.capReached d.config.maxRestarts))
  else .ok ()

def parentStatus (d : Dispatcher τ) (id : String) : Option (Bool × Bool) :=
  (d.registry.get? id).map fun j ↦ (j.finished, j.error.isSome)

def prepareRestart (d : Dispatcher τ) (now : Instant) (j : Job) : Except Error (Job × τ) := do
  d.allowsRestart j
  if (d.handles.lookup j.id).isSome then throw (.restartRefused j.id .active)
  match d.runners.get? j.kind with
  | none => throw (.notFound "job runner" j.kind.name)
  | some r =>
    let again := j.again now
    return (again, ← r.build again)

/-- Runs a job again. The registry knows best what state the job is in; the given one counts only
if the registry does not know the job. -/
def restart (d : Dispatcher τ) (now : Instant) (j : Job) : Except Error Unit × Dispatcher τ :=
  let current := (d.registry.get? j.id).getD j
  match d.prepareRestart now current with
  | .error e => (.error e, d)
  | .ok (again, task) =>
    let deps := (d.deps.reopenParent current.id).refreshEdges current.id d.parentStatus
    (.ok (), { d with deps, detached := d.detached.erase current.id }.enqueue task again)

/-- Restarts detached jobs and counts them; a job that may not run again is recorded as failed. -/
def resumeAll (now : Instant) : List Job → Dispatcher τ → Nat × Dispatcher τ
  | [], d => (0, d)
  | j :: rest, d =>
    match d.restart now j with
    | (.ok _, d) =>
      let (n, d) := resumeAll now rest d
      (n + 1, d)
    | (.error e, d) =>
      resumeAll now rest { d with
        detached := d.detached.erase j.id
        registry := d.registry.insert (j.fail now ("not resumed: " ++ e.message)) }

def resume (d : Dispatcher τ) (now : Instant) : Nat × Dispatcher τ :=
  resumeAll now d.detached.listed d

end JobEngine.Dispatcher
