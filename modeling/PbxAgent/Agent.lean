import PbxAgent.Config
import PbxAgent.Tunnel.Table

/-!
# The agent

The two parties to a connection that the backend talks to: the handshake and the table of sessions.
A frame goes to one of them by its kind, and neither sees what the other does.
-/

namespace PbxAgent

/-- What the agent remembers on a connection. -/
structure Agent where
  handshake : Handshake
  tunnels : Tunnel.Table

namespace Agent

/-- The agent of a configuration, with nothing said yet. -/
def ofConfig (c : Config) : Agent where
  handshake := .new c.identity (.ofSecret (Text.Utf8.encode c.vault.secret)) c.vault.paths
  tunnels := { pieceSize := c.tunnel.pieceSize }

/-- Forgets what has been said. Files are left alone. -/
def reset (a : Agent) : Agent where
  handshake := a.handshake.reset
  tunnels := a.tunnels.clear

/-- The frame that presents the identity. -/
def identify (a : Agent) : Bytes × Agent :=
  let (m, h) := a.handshake.identify
  (m.bytes, { a with handshake := h })

/-- Notes that the identity has been sent. -/
def identitySent (a : Agent) : Agent :=
  { a with handshake := a.handshake.identitySent }

/-- Whether the backend has had a challenge answered or the passwords changed. -/
def isAuthenticated (a : Agent) : Bool :=
  a.handshake.stage = .authenticated || a.handshake.stage = .passwordsRotated

/-- Acts on a frame and gives the bytes of the reply, if there is one. -/
def handleFrame (handler : Handler) (a : Agent) (host : Host) (b : Bytes) :
    Except AgentError (Option Bytes) × Agent × Host :=
  match Frame.parse b with
  | .error e => (.error (.frame e), a, host)
  | .ok (.admin m) =>
    let (reply, h, host) := a.handshake.handle m host
    (reply.map (·.map AdminMessage.bytes), { a with handshake := h }, host)
  | .ok (.tunnel m) =>
    let (reply, t) := a.tunnels.handle handler m
    (reply.map fun r => some r.bytes, { a with tunnels := t }, host)

end Agent

end PbxAgent
