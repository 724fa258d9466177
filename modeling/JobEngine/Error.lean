import JobEngine.Job.Kind

namespace JobEngine

inductive DependencyError
  | missing
  | duplicate
  | circular
deriving DecidableEq

inductive RestartRefusal
  | succeeded
  | capReached (cap : UInt32)
  | active
deriving DecidableEq

inductive StopRefusal
  | full
  | closed
deriving DecidableEq

inductive Error
  | emptyQueue
  | dependency (cause : DependencyError)
  | unreadable
  | io
  | notFound (entity id : String)
  | restartRefused (id : String) (cause : RestartRefusal)
  | invalidConfigFile
  | invalidFilter
  | invalidSetting (key value : String)
  | requestFailed
  | requestRefused (status reason body : String)
  | deliveryFailed
  | unsuitableRunner (kind : JobKind)
  | stopRefused (cause : StopRefusal)
deriving DecidableEq

def DependencyError.message : DependencyError → String
  | missing => "no such job dependency"
  | duplicate => "duplicate dependency"
  | circular => "circular job dependency"

def RestartRefusal.message : RestartRefusal → String
  | succeeded => "job already finished successfully"
  | capReached cap => s!"maximum number of restarts ({cap.toNat}) reached"
  | active => "job is still active"

def StopRefusal.message : StopRefusal → String
  | full => "no available capacity"
  | closed => "channel closed"

def Error.message : Error → String
  | emptyQueue => "Queue error: empty queue"
  | dependency cause => s!"Dependency error: {cause.message}"
  | unreadable => "Serialization error"
  | io => "IO error"
  | notFound entity id => s!"Entity not found: {entity} with id {id}"
  | restartRefused id cause => s!"Job {id} cannot be restarted: {cause.message}"
  | invalidConfigFile => "Configuration error: invalid config file"
  | invalidFilter => "Configuration error: Invalid filter directive"
  | invalidSetting key value => s!"Configuration error: {key}: invalid value '{value}'"
  | requestFailed => "Notification error: Webhook request failed"
  | requestRefused status reason body =>
    s!"Notification error: Webhook failed: {status} {reason} - {body}"
  | deliveryFailed => "Notification error: forced failure"
  | unsuitableRunner kind => s!"dummy runner cannot run job of type {kind.name}"
  | stopRefused cause => s!"stop request not accepted: {cause.message}"

end JobEngine
