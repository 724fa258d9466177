import JobEngine.Config.Basic

namespace JobEngine

namespace Variable

def configPath : String := "CORPUS_JOBS_CONFIG"

def statusDataPath : String := "CORPUS_JOBS_STATUS_DATA_PATH"

def maxConcurrent : String := "CORPUS_JOBS_MAX_CONCURRENT"

def maxRestarts : String := "CORPUS_JOBS_MAX_RESTARTS"

def logDir : String := "CORPUS_JOBS_LOG_DIR"

def number? (bound : Nat) (value : String) : Option Nat :=
  let cs := match Text.trim value.toList with
    | '+' :: rest => rest
    | cs => cs
  if cs ≠ [] ∧ cs.all Text.isDigit ∧ Text.digitsValue cs < bound then some (Text.digitsValue cs)
  else none

def uint64 (key value : String) : Except Error UInt64 :=
  match number? UInt64.size value with
  | some n => .ok (UInt64.ofNat n)
  | none => .error (.invalidSetting key value)

def uint32 (key value : String) : Except Error UInt32 :=
  match number? UInt32.size value with
  | some n => .ok (UInt32.ofNat n)
  | none => .error (.invalidSetting key value)

end Variable

namespace AppConfig

/-- One override: nothing without a value, the settings changed or an error. -/
abbrev Override := (String → Option String) → AppConfig → Except Error AppConfig

def overrideStatusPath : Override := fun env c ↦
  match env Variable.statusDataPath with
  | none => .ok c
  | some v => .ok { c with jobs.statusDataPath := v }

def overrideConcurrency : Override := fun env c ↦
  match env Variable.maxConcurrent with
  | none => .ok c
  | some v => do
    return { c with jobs.maxConcurrent := ← Variable.uint64 Variable.maxConcurrent v }

def overrideRestarts : Override := fun env c ↦
  match env Variable.maxRestarts with
  | none => .ok c
  | some v => do return { c with jobs.maxRestarts := ← Variable.uint32 Variable.maxRestarts v }

def overrideLogDir : Override := fun env c ↦
  match env Variable.logDir with
  | none => .ok c
  | some v => .ok { c with logging.dir := v }

def overrides : List Override :=
  [overrideStatusPath, overrideConcurrency, overrideRestarts, overrideLogDir]

/-- Applies overrides up to the first error; the configuration reached is returned with it. -/
def applyAll (env : String → Option String) :
    List Override → AppConfig → AppConfig × Except Error Unit
  | [], c => (c, .ok ())
  | o :: rest, c =>
    match o env c with
    | .ok c => applyAll env rest c
    | .error e => (c, .error e)

def applyEnvironment (env : String → Option String) (c : AppConfig) :
    AppConfig × Except Error Unit := applyAll env overrides c

end AppConfig

end JobEngine
