import PbxAgent.Identity
import PbxAgent.Stats
import PbxAgent.Tunnel.Table

/-!
# The status pages

What the agent itself answers to requests: how it is doing, and who it is. Both pages can only be
read.
-/

namespace PbxAgent

/-- What the status pages tell of. -/
structure Status where
  identity : Identity
  stats : Stats
  /-- Nanoseconds since the agent's start. -/
  uptime : Nat := 0
  /-- Nanoseconds on the clock that events are timed by. -/
  now : Nat := 0
  deriving DecidableEq

namespace Status

/-! ## Pages -/

/-- The release of the agent. -/
def version : String := "0.1.0"

/-- The most events that the page of health shows. -/
def eventsShown : Nat := 10

/-- The whole seconds in a number of nanoseconds. -/
def wholeSeconds (nanoseconds : Nat) : Nat := nanoseconds / 1000000000

/-- How long ago, in the largest unit of which there is a whole one. -/
def agoText (seconds : Nat) : String :=
  if seconds < 60 then s!"{seconds}s ago"
  else if seconds < 3600 then s!"{seconds / 60}m ago"
  else s!"{seconds / 3600}h ago"

/-- An event on the page. -/
def eventJson (now : Nat) (e : Event) : Json.Value :=
  .object [("detail", .string e.detail), ("event", .string e.kind.name),
    ("time", .string (agoText (wholeSeconds (now - e.time))))]

/-- The state of the connection on the page. -/
def connectionJson (s : Status) : Json.Value :=
  .object [("authenticated", .flag s.stats.authenticated), ("connected", .flag s.stats.connected),
    ("frames_dropped", .natural s.stats.framesDropped.toNat),
    ("frames_received", .natural s.stats.framesReceived.toNat),
    ("frames_sent", .natural s.stats.framesSent.toNat),
    ("recent_events", .list ((s.stats.events.reverse.take eventsShown).map (eventJson s.now))),
    ("reconnects", .natural s.stats.reconnects.toNat),
    ("tunnel_sessions", .natural s.stats.sessions.toNat)]

/-- How the agent is doing; members are in the order of their names, events newest first. -/
def health (s : Status) : Json.Value :=
  .object [("connection", s.connectionJson), ("status", .string "ok"),
    ("uptime_secs", .natural (wholeSeconds s.uptime)), ("version", .string version)]

/-- Who the agent is. -/
def info (s : Status) : Json.Value :=
  s.identity.withoutDigest.json

/-! ## Requests -/

/-- The page at a path. -/
def page? (s : Status) (path : Bytes) : Option Json.Value :=
  if path = Text.Utf8.encode "/api/health" then some s.health
  else if path = Text.Utf8.encode "/api/info" then some s.info
  else none

/-- A field of a response. -/
def field (name value : String) : Http.Fields :=
  [(Text.Utf8.encode name, [Text.Utf8.encode value])]

def getMethod : Bytes := [0x47, 0x45, 0x54]
def headMethod : Bytes := [0x48, 0x45, 0x41, 0x44]

/-- Answers a request. No request fails. -/
def respond (s : Status) (r : Http.Request) : Http.Response :=
  match s.page? r.uri.path with
  | none => { status := 404 }
  | some page =>
    let type := field "content-type" "application/json"
    if r.method = getMethod then { status := 200, fields := type, body := page.bytes }
    else if r.method = headMethod then { status := 200, fields := type }
    else { status := 405, fields := field "allow" "GET,HEAD" }

/-- The status pages as what answers requests. -/
def handler (s : Status) : Handler :=
  fun r => .ok (s.respond r)

end Status

end PbxAgent
