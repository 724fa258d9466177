import JobEngine.Daemon
import JobEngine.Logging.Retention
import Std.Time.DateTime.Timestamp

namespace JobEngine.Program

abbrev Log := List LogEntry

def outlet : Outlet Log where
  log entry w := w ++ [entry]
  exchange _ w := (none, w)

def known : List String :=
  [Variable.configPath, Variable.statusDataPath, Variable.maxConcurrent, Variable.maxRestarts,
    Variable.logDir, Daemon.filterVariable]

def readEnvironment : IO Environment :=
  known.filterMapM fun name ↦ do return (← IO.getEnv name).map (name, ·)

def readClock : IO Instant := do
  let nanos := (← Std.Time.Timestamp.now).toNanosecondsSinceUnixEpoch.val
  match Instant.ofSeconds? (nanos / 1000000000) (nanos % 1000000000).toNat with
  | some now => return now
  | none => throw (IO.userError "the clock is beyond the calendar")

def discover (fs : FileSystem) (path : String) : IO FileSystem := do
  let parts := (Path.ofString path).parts
  try return fs.put parts (.file (← IO.FS.readBinFile path))
  catch _ => return if ← ((← IO.currentDir) / path).isDir then fs.put parts .directory else fs

def writeState (path : String) (content : ByteArray) : IO Unit := do
  let parent := String.intercalate "/" (Path.ofString path).parent
  if parent ≠ "" then IO.FS.createDirAll parent
  IO.FS.writeBinFile (path ++ ".tmp") content
  IO.FS.rename (path ++ ".tmp") path

/-- Writes the state file if its content is another than before. -/
def synchronize (s : Store) (before after : FileSystem) : IO Unit := do
  match after.read s.target with
  | none => return
  | some content =>
    if (before.read s.target).all (·.data ≠ content.data) then writeState s.path content

def report (l : LogEntry) : IO Unit := do
  let level := if l.warning then "WARN" else "INFO"
  IO.eprintln s!"{level} {l.message}"

def cleanLogs (now : Instant) (dir : String) : IO Unit := do
  let folder := (← IO.currentDir) / dir
  let files ← (← folder.readDir).toList.mapM fun entry ↦ do
    return (⟨entry.fileName, !(← entry.path.isDir)⟩ : LogFile)
  for f in files do
    if !(LogFile.leftAfter now LogFile.period files).contains f then
      if let some name := f.name.text? then
        try IO.FS.removeFile (folder / name) catch _ => pure ()

/-- One round of work: time goes on, and what has come of it is written. -/
def round (elapsed : Nat) (d : Daemon Log) : IO (Daemon Log) := do
  let e := d.engine
  let after := { e with now := ← readClock }.runTo (e.time + elapsed)
  after.world.forM report
  synchronize e.store e.files after.files
  return { d with engine := { after with world := [] } }

def pace : UInt32 := 50

partial def work (logDir : String) (interrupted : IO.Ref Bool) (last cleaned : Nat)
    (d : Daemon Log) : IO (Daemon Log) := do
  let time ← IO.monoMsNow
  let d ← round (time - last) d
  let due := cleaned + LogFile.period * 1000 ≤ time
  if due then try cleanLogs d.engine.now logDir catch _ => pure ()
  if ← interrupted.get then return d
  IO.sleep pace
  work logDir interrupted time (if due then time else cleaned) d

partial def awaitEnd (input : IO.FS.Stream) (interrupted : IO.Ref Bool) : IO Unit := do
  if (← input.getLine).isEmpty then interrupted.set true else awaitEnd input interrupted

def surroundings : IO Surroundings := do
  let found : Surroundings := {
    environment := ← readEnvironment
    files := ← discover {} Daemon.environmentFile
    now := ← readClock
    processors := 4 }
  let env := (Daemon.environment found).value?
  let files ← discover found.files ((env Variable.configPath).getD AppConfig.defaultPath)
  match AppConfig.load env files found.processors with
  | .error _ => return { found with files }
  | .ok (config, _) =>
    let files ← discover files config.jobs.statusDataPath
    return { found with files := ← discover files config.logging.dir }

def run : IO UInt32 := do
  let s ← surroundings
  match Daemon.boot s outlet [] with
  | (.error e, _) =>
    IO.eprintln s!"Error: {e.message}"
    return 1
  | (.ok d, files) =>
    if let some warning := d.warning then IO.eprintln s!"WARN {warning}"
    let logDir := d.logDir
    if logDir ≠ "" then IO.FS.createDirAll logDir
    synchronize d.engine.store s.files files
    let interrupted ← IO.mkRef false
    let input ← IO.getStdin
    let _ ← IO.asTask (awaitEnd input interrupted)
    let start ← IO.monoMsNow
    let d ← work logDir interrupted start start d
    match d.shutdown with
    | (.error e, _) =>
      IO.eprintln s!"Error: {e.message}"
      return 1
    | (.ok _, files) =>
      synchronize d.engine.store d.engine.files files
      return 0

end JobEngine.Program

def main : IO UInt32 := JobEngine.Program.run
