import JobEngine.Config.EnvironmentFile
import JobEngine.Config.Load
import JobEngine.Engine.Shutdown
import JobEngine.Dispatcher.Submit
import JobEngine.Logging.Filter

namespace JobEngine

structure Surroundings where
  environment : Environment
  files : FileSystem
  now : Instant
  processors : UInt64

structure Daemon (σ : Type) where
  engine : Engine σ
  logDir : String
  filter : Filter
  warning : Option String

namespace Daemon

variable {σ : Type}

def environmentFile : String := ".env"

def environment (s : Surroundings) : Environment :=
  match (s.files.read (.ofString environmentFile)).bind String.fromUTF8? with
  | some text => EnvironmentFile.apply s.environment text
  | none => s.environment

def filterVariable : String := "RUST_LOG"

def assemble (s : Surroundings) (c : AppConfig) (files : FileSystem) (o : Outlet σ) (world : σ) :
    Engine σ where
  dispatcher := Dispatcher.create s.processors c.jobs Runners.builtin
  store := ⟨c.jobs.statusDataPath⟩
  files := files
  service := Service.ofConfig o c.notification
  world := world
  now := s.now

def takeUp (e : Engine σ) : Engine σ :=
  let (_, e) := e.act fun d ↦ d.loadState e.store e.files
  let e := e.start
  (e.act fun d ↦ d.resume e.now).2

/-- Brings the service up. The files are returned as they are then, also after an error. -/
def boot (s : Surroundings) (o : Outlet σ) (world : σ) :
    Except Error (Daemon σ) × FileSystem :=
  let env := (environment s).value?
  match AppConfig.load env s.files s.processors with
  | .error e => (.error e, s.files)
  | .ok (config, warning) =>
    match s.files.makeDirectories (Path.ofString config.logging.dir).parts with
    | none => (.error .io, s.files)
    | some files =>
      let engine := takeUp (assemble s config files o world)
      let filter := Filter.initial (env filterVariable) config.logging.filter
      (.ok { engine, logDir := config.logging.dir, filter, warning }, engine.files)

def patience : Nat := 24 * 3600 * 1000

def workUntil (ended : Nat) (d : Daemon σ) : Daemon σ :=
  let e := d.engine
  { d with engine :=
    Engine.passTimers (fun e ↦ e.ended < ended) (e.time + patience) patience e }

def shutdown (d : Daemon σ) : Except Error Unit × FileSystem :=
  let (answer, e) := d.engine.shutdown
  (answer, e.files)

/-- A whole run, interrupted when so many jobs have ended. -/
def session (s : Surroundings) (o : Outlet σ) (world : σ) (ended : Nat) :
    Except Error Unit × FileSystem :=
  match boot s o world with
  | (.error e, files) => (.error e, files)
  | (.ok d, _) => (d.workUntil ended).shutdown

end Daemon

end JobEngine
