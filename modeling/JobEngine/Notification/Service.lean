import JobEngine.Notification.Channel

namespace JobEngine

structure ServiceConfig where
  enabled : Bool := false
  channels : List Channel := []
deriving DecidableEq

namespace ServiceConfig

def toJson (c : ServiceConfig) : Json :=
  .obj [("enabled", .bool c.enabled), ("channels", .arr (c.channels.map Channel.toJson))]

def ofJson? (v : Json) : Option ServiceConfig := do
  let m ← v.asMembers? ["enabled", "channels"]
  return {
    enabled := ← m.withDefault "enabled" Json.asBool? false
    channels := ← m.withDefault "channels" (Json.asList? Channel.ofJson?) [] }

end ServiceConfig

structure Endpoint (σ : Type) where
  enabled : Bool
  send : Notification → σ → Except Error Unit × σ

def Channel.endpoint {σ : Type} (o : Outlet σ) (c : Channel) : Endpoint σ := ⟨c.active, c.put o⟩

structure Service (σ : Type) where
  enabled : Bool
  endpoints : List (Endpoint σ)
  delivered : Nat := 0
  failed : Nat := 0

namespace Service

variable {σ : Type}

/-- The service for a configuration; channels that it switches off are not made. -/
def ofConfig (o : Outlet σ) (c : ServiceConfig) : Service σ where
  enabled := c.enabled
  endpoints := (c.channels.filter (·.configured)).map (·.endpoint o)

def add (s : Service σ) (e : Endpoint σ) : Service σ :=
  { s with endpoints := s.endpoints ++ [e] }

def count (s : Service σ) : Except Error Unit → Service σ
  | .ok _ => { s with delivered := s.delivered + 1 }
  | .error _ => { s with failed := s.failed + 1 }

def sendAll (n : Notification) : List (Endpoint σ) → Service σ → σ → Service σ × σ
  | [], s, w => (s, w)
  | e :: es, s, w =>
    if e.enabled then
      let (answer, w) := e.send n w
      sendAll n es (s.count answer) w
    else sendAll n es s w

def notify (s : Service σ) (n : Notification) (w : σ) : Service σ × σ :=
  if s.enabled then sendAll n s.endpoints s w else (s, w)

/-- Reports a job that has ended. Failed deliveries are counted and are no failure of the report. -/
def jobFinished (s : Service σ) (j : Job) (w : σ) : Except Error Unit × Service σ × σ :=
  (.ok (), s.notify (.ofJob j) w)

def stats (s : Service σ) : Nat × Nat × Nat := (s.endpoints.length, s.delivered, s.failed)

end Service

end JobEngine
