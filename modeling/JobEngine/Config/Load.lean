import JobEngine.Config.Overrides
import JobEngine.Store.FileSystem

namespace JobEngine.AppConfig

def defaultPath : String := "config.json"

def fromFile (fs : FileSystem) (path : String) : Except Error AppConfig :=
  match (fs.read (.ofString path)).bind String.fromUTF8? with
  | some text => parse text
  | none => .error .io

def isThere (fs : FileSystem) (path : String) : Bool :=
  let p := Path.ofString path
  path ≠ "" && (fs.find? p.parts).isSome && (!p.folder || fs.isDirectory p.parts)

def load (env : String → Option String) (fs : FileSystem) (processors : UInt64) :
    Except Error (AppConfig × Option String) := do
  let path := (env Variable.configPath).getD defaultPath
  let (config, warning) ←
    if isThere fs path then do pure (← fromFile fs path, none)
    else pure (preset processors, some s!"config file {path} not found, using defaults")
  match config.applyEnvironment env with
  | (config, .ok _) => return (config, warning)
  | (_, .error e) => throw e

end JobEngine.AppConfig
