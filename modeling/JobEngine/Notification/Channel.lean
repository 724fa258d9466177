import JobEngine.Error
import JobEngine.Notification.Message
import JobEngine.Notification.Status

namespace JobEngine

inductive WebhookAuth
  | bearer (token : String)
deriving DecidableEq

structure LogChannel where
  enabled : Bool := true
deriving DecidableEq

structure Webhook where
  enabled : Bool := false
  url : String := ""
  auth : Option WebhookAuth := none
  timeoutSecs : UInt64 := 30
deriving DecidableEq

inductive Channel
  | log (config : LogChannel)
  | webhook (config : Webhook)
deriving DecidableEq

/-- The tag of a tagged value and the value without it. A tag is the member `type` of an object
or the first item of an array. -/
def Json.untag? : Json → Option (Json × Json)
  | .obj members =>
    match members.partition (·.1 = "type") with
    | ([(_, tag)], rest) => some (tag, .obj rest)
    | _ => none
  | .arr (tag :: items) => some (tag, .arr items)
  | _ => none

namespace WebhookAuth

def toJson : WebhookAuth → Json
  | bearer token => .obj [("type", .str "bearer"), ("token", .str token)]

/-- The only kind of credentials may also be given by its number. -/
def isBearer : Json → Bool
  | .str s => s = "bearer"
  | v => v.asInt? = some 0

def ofJson? (v : Json) : Option WebhookAuth := do
  let (tag, v) ← v.untag?
  if isBearer tag then
    let m ← v.asMembers? ["token"]
    return bearer (← m.required "token" Json.asString?)
  else none

end WebhookAuth

namespace Channel

def typeName : Channel → String
  | log _ => "log"
  | webhook _ => "webhook"

def configured : Channel → Bool
  | log c => c.enabled
  | webhook c => c.enabled

/-- Whether the channel takes part: a webhook needs an address too. -/
def active : Channel → Bool
  | log c => c.enabled
  | webhook c => c.enabled && c.url ≠ ""

def members : Channel → Members
  | log c => [("enabled", .bool c.enabled)]
  | webhook c =>
    [("enabled", .bool c.enabled), ("url", .str c.url),
      ("auth", Members.orNull WebhookAuth.toJson c.auth), ("timeoutSecs", .ofUInt64 c.timeoutSecs)]

def toJson (c : Channel) : Json := .obj (("type", .str c.typeName) :: c.members)

def ofJson? (v : Json) : Option Channel := do
  let (tag, v) ← v.untag?
  match tag with
  | .str "log" =>
    let m ← v.asMembers? ["enabled"]
    return log { enabled := ← m.withDefault "enabled" Json.asBool? true }
  | .str "webhook" =>
    let m ← v.asMembers? ["enabled", "url", "auth", "timeoutSecs"]
    return webhook {
      enabled := ← m.withDefault "enabled" Json.asBool? false
      url := ← m.required "url" Json.asString?
      auth := ← m.optional "auth" WebhookAuth.ofJson?
      timeoutSecs := ← m.withDefault "timeoutSecs" Json.asUInt64? 30 }
  | _ => none

end Channel

structure LogEntry where
  warning : Bool
  message : String
  jobId : String
  corpusId : String
deriving DecidableEq

structure Request where
  url : String
  authorization : Option String
  body : Json

structure Response where
  status : Nat
  body : String
deriving DecidableEq

namespace Notification

def logEntry (n : Notification) : LogEntry where
  warning := !n.ok
  message := s!"{n.subject}: {n.body}"
  jobId := n.jobId
  corpusId := n.corpusId

def payload (n : Notification) : Json :=
  .obj [("event", .str "job_finished"), ("subject", .str n.subject), ("body", .str n.body),
    ("timestamp", .str n.timestamp.textWithOffset), ("job", n.toJson)]

end Notification

namespace Webhook

def isHeaderText (s : String) : Bool :=
  s.toList.all fun c ↦ c = '\t' || (0x20 ≤ c.toNat && c.toNat ≠ 0x7f)

def request? (c : Webhook) (n : Notification) : Option Request :=
  match c.auth with
  | none => some ⟨c.url, none, n.payload⟩
  | some (.bearer token) =>
    if isHeaderText token then some ⟨c.url, some ("Bearer " ++ token), n.payload⟩ else none

/-- What a response means for the delivery. After one that only announces another, the other never
comes. -/
def judge (r : Response) : Except Error Unit :=
  if Status.isSuccess r.status then .ok ()
  else if Status.isInterim r.status then .error .requestFailed
  else .error (.requestRefused (toString r.status) (Status.reason r.status)
    (if Status.hasBody r.status then r.body else ""))

end Webhook

/-- How channels reach the world `σ` outside: writing to the log, and exchanging a request for a
response, which fails where the address cannot be reached. -/
structure Outlet (σ : Type) where
  log : LogEntry → σ → σ
  exchange : Request → σ → Option Response × σ

def Channel.put {σ : Type} (o : Outlet σ) (c : Channel) (n : Notification) (w : σ) :
    Except Error Unit × σ :=
  match c with
  | .log _ => (.ok (), o.log n.logEntry w)
  | .webhook h =>
    if c.active then
      match h.request? n with
      | none => (.error .requestFailed, w)
      | some r =>
        match o.exchange r w with
        | (none, w) => (.error .requestFailed, w)
        | (some response, w) => (Webhook.judge response, w)
    else (.ok (), w)

end JobEngine
