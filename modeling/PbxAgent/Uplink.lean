import PbxAgent.Agent
import PbxAgent.Stats

/-!
# The uplink

The agent on its connections to the backend, one after the other, and the statistics of them. On every
connection the agent begins afresh, presents its identity, and answers the frames that come in, in
their order. A frame that fails is dropped; a connection ends when it is closed, when it runs dry, or
with an error of the transport.
-/

namespace PbxAgent

/-! ## What comes in -/

/-- A message from the backend. -/
inductive Message where
  | binary (data : Bytes)
  | text (s : String)
  | ping (data : Bytes)
  | pong (data : Bytes)
  /-- The backend takes its leave. -/
  | close
  deriving DecidableEq

/-- What a connection yields: a message, or an error in place of one. `sendError` is what sending a
reply to the message meets with, if there is one. -/
structure Arrival where
  message : Except TransportError Message
  sendError : Option TransportError := none

/-- How a connection, or an attempt at one, ends. -/
inductive Ending where
  | closed
  | exhausted
  | failed (e : AgentError)
  deriving DecidableEq

/-- What comes of an attempt at a connection. -/
inductive Attempt where
  | failed (e : TransportError)
  /-- The backend accepts, and the connection yields something until it ends. `sendError` is what
  sending the identity meets with. -/
  | accepted (sendError : Option TransportError) (arrivals : List Arrival)

/-! ## The uplink -/

/-- The agent with its statistics and its host. -/
structure Uplink where
  agent : Agent
  stats : Stats := {}
  host : Host
  /-- Nanoseconds on the clock that events are timed by. Nothing on a connection reads the clock but for
  that, and it stands still while one runs: events noted between two settings have the same time. -/
  now : Nat := 0

namespace Uplink

/-- Enters an event into the log. -/
def note (u : Uplink) (kind : EventKind) (detail : String) : Uplink :=
  { u with stats := u.stats.push ⟨kind, detail, u.now⟩ }

/-- Takes up a connection to a URL and presents the identity, which is given for sending. -/
def connect (u : Uplink) (url : String) : Bytes × Uplink :=
  let u := { u with stats := { u.stats with connected := true } }
  let u := u.note .connected url
  let (frame, agent) := u.agent.reset.identify
  (frame, { u with agent := agent })

/-- Notes that the identity has been sent. -/
def presented (u : Uplink) : Uplink :=
  { u with agent := u.agent.identitySent
           stats := { u.stats with framesSent := u.stats.framesSent + 1 } }

/-- Brings the statistics in line with the agent once a frame has been dealt with. -/
def settle (u : Uplink) : Uplink :=
  let u := if u.agent.isAuthenticated && !u.stats.authenticated then
      { u with stats := { u.stats with authenticated := true } }.note .authenticated ""
    else u
  { u with stats := { u.stats with sessions := .ofNat u.agent.tunnels.size } }

/-- Deals with a binary message and gives the reply that was sent, if any. An error ends the
connection. The handler may tell of the statistics as they are once the frame has been counted. -/
def receiveFrame (handler : Stats → Handler) (u : Uplink) (data : Bytes)
    (sendError : Option TransportError) : Except AgentError (Option Bytes) × Uplink :=
  let u := { u with stats := { u.stats with framesReceived := u.stats.framesReceived + 1 } }
  let (reply, agent, host) := u.agent.handleFrame (handler u.stats) u.host data
  let u := { u with agent := agent, host := host }
  match reply with
  | .ok (some r) =>
    match sendError with
    | some e => (.error (.transport e), u)
    | none =>
      (.ok (some r),
        { u with stats := { u.stats with framesSent := u.stats.framesSent + 1 } }.settle)
  | .ok none => (.ok none, u.settle)
  | .error e =>
    if e.isTransport then (.error e, u)
    else (.ok none,
      { u with stats := { u.stats with framesDropped := u.stats.framesDropped + 1 } }.settle)

/-- Deals with what a connection yields, and gives the reply that was sent, if any, or how the
connection ends. Of the messages that do not end it only binary ones matter to the agent. -/
def receive (handler : Stats → Handler) (u : Uplink) (a : Arrival) :
    Except Ending (Option Bytes) × Uplink :=
  match a.message with
  | .error e => (.error (.failed (.transport e)), u)
  | .ok .close => (.error .closed, u)
  | .ok (.binary data) =>
    let (reply, u) := u.receiveFrame handler data a.sendError
    (reply.mapError .failed, u)
  | .ok _ => (.ok none, u)

/-- Deals with all that a connection yields, in order. Gives the replies sent, how the connection ended,
and the uplink at its end. -/
def serve (handler : Stats → Handler) : Uplink → List Arrival → List Bytes × Ending × Uplink
  | u, [] => ([], .exhausted, u)
  | u, a :: arrivals =>
    match u.receive handler a with
    | (.error ending, u) => ([], ending, u)
    | (.ok reply, u) =>
      let (sent, ending, u) := serve handler u arrivals
      (reply.toList ++ sent, ending, u)

/-- Closes the books on an attempt. -/
def finish (u : Uplink) (ending : Ending) : Uplink :=
  let wasConnected := u.stats.connected
  let u := { u with
    stats := { u.stats with connected := false, authenticated := false, sessions := 0 } }
  let u := match ending with
    | .closed => u.note .disconnected "closed by backend"
    | .exhausted => u.note .disconnected "end of stream"
    | .failed e => u.note (if wasConnected then .disconnected else .connectFailed) e.message
  { u with stats := { u.stats with reconnects := u.stats.reconnects + 1 } }

/-- One attempt at a connection, from its beginning to its end, with the frames sent on it. -/
def attempt (handler : Stats → Handler) (url : String) (u : Uplink) :
    Attempt → List Bytes × Uplink
  | .failed e => ([], u.finish (.failed (.transport e)))
  | .accepted sendError arrivals =>
    let (frame, u) := u.connect url
    match sendError with
    | some e => ([], u.finish (.failed (.transport e)))
    | none =>
      let (sent, ending, u) := serve handler u.presented arrivals
      (frame :: sent, u.finish ending)

/-- Attempts one after the other, with the frames sent on each. -/
def run (handler : Stats → Handler) (url : String) (u : Uplink) :
    List Attempt → List (List Bytes) × Uplink
  | [] => ([], u)
  | a :: as =>
    let (sent, u) := u.attempt handler url a
    let (rest, u) := run handler url u as
    (sent :: rest, u)

end Uplink

end PbxAgent
