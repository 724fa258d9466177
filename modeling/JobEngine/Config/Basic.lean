import JobEngine.Json.Reader
import JobEngine.Notification.Service

namespace JobEngine

structure JobsConfig where
  statusDataPath : String := "jobs-status.json"
  maxConcurrent : UInt64 := 0
  maxRestarts : UInt32 := 3
  checkpointSecs : UInt64 := 60
  retentionHours : UInt64 := 168
deriving DecidableEq

structure LogConfig where
  dir : String := "logs"
  filter : Option String := none
deriving DecidableEq

structure AppConfig where
  jobs : JobsConfig := {}
  notification : ServiceConfig := {}
  logging : LogConfig := {}
deriving DecidableEq

namespace JobsConfig

/-- The concurrency picked for a machine: as many jobs as it has processors, four at most. -/
def pickConcurrency (processors : UInt64) : UInt64 := min processors 4

def preset (processors : UInt64) : JobsConfig := { maxConcurrent := pickConcurrency processors }

def normalize (processors : UInt64) (c : JobsConfig) : JobsConfig :=
  if c.maxConcurrent = 0 then { c with maxConcurrent := pickConcurrency processors } else c

def keys : List String :=
  ["statusDataPath", "maxNumConcurrentJobs", "maxNumRestarts", "checkpointIntervalSecs",
    "jobRetentionHours"]

def toMembers (c : JobsConfig) : Members :=
  [("statusDataPath", .str c.statusDataPath), ("maxNumConcurrentJobs", .ofUInt64 c.maxConcurrent),
    ("maxNumRestarts", .ofUInt32 c.maxRestarts),
    ("checkpointIntervalSecs", .ofUInt64 c.checkpointSecs),
    ("jobRetentionHours", .ofUInt64 c.retentionHours)]

def toJson (c : JobsConfig) : Json := .obj c.toMembers

def ofMembers? (m : Members) : Option JobsConfig := do
  return {
    statusDataPath := ← m.withDefault "statusDataPath" Json.asString? "jobs-status.json"
    maxConcurrent := ← m.withDefault "maxNumConcurrentJobs" Json.asUInt64? 0
    maxRestarts := ← m.withDefault "maxNumRestarts" Json.asUInt32? 3
    checkpointSecs := ← m.withDefault "checkpointIntervalSecs" Json.asUInt64? 60
    retentionHours := ← m.withDefault "jobRetentionHours" Json.asUInt64? 168 }

def ofJson? (v : Json) : Option JobsConfig := (v.asMembers? keys).bind ofMembers?

end JobsConfig

namespace LogConfig

def toJson (c : LogConfig) : Json :=
  .obj [("dir", .str c.dir), ("filter", Members.orNull .str c.filter)]

def ofJson? (v : Json) : Option LogConfig := do
  let m ← v.asMembers? ["dir", "filter"]
  return {
    dir := ← m.withDefault "dir" Json.asString? "logs"
    filter := ← m.optional "filter" Json.asString? }

end LogConfig

namespace AppConfig

def preset (processors : UInt64) : AppConfig := { jobs := .preset processors }

def toJson (c : AppConfig) : Json :=
  .obj (c.jobs.toMembers ++
    [("notification", c.notification.toJson), ("logging", c.logging.toJson)])

def ofMembers? (m : Members) : Option AppConfig := do
  return {
    jobs := ← JobsConfig.ofMembers? m
    notification := ← m.withDefault "notification" ServiceConfig.ofJson? {}
    logging := ← m.withDefault "logging" LogConfig.ofJson? {} }

def ofJson? : Json → Option AppConfig
  | .obj m =>
    if Json.unrepeated (JobsConfig.keys ++ ["notification", "logging"]) m then ofMembers? m
    else none
  | _ => none

def parse (text : String) : Except Error AppConfig :=
  match (Json.read text).bind ofJson? with
  | some c => .ok c
  | none => .error .invalidConfigFile

end AppConfig

end JobEngine
