import PbxAgent.Transport.Endpoint
import PbxAgent.Transport.Upgrade

/-!
# Transport errors

What ends a connection, or keeps it from being made. Nothing else does.
-/

namespace PbxAgent

open Transport

/-- Why there is no connection, or no longer one. -/
inductive TransportError where
  /-- Nothing was heard for too long. -/
  | timeout (url : String) (seconds : Nat)
  | endpoint (e : UrlError)
  /-- Nobody listens. -/
  | refused
  | upgrade (e : UpgradeError)
  /-- The stream broke off without a farewell. -/
  | reset
  deriving DecidableEq, Repr

def TransportError.message : TransportError → String
  | timeout url seconds => s!"connect to '{url}' timed out after {seconds}s"
  | endpoint e => "websocket error: " ++ e.message
  | refused => "websocket error: IO error: Connection refused (os error 111)"
  | upgrade e => "websocket error: " ++ e.message
  | reset =>
    "websocket error: WebSocket protocol error: Connection reset without closing handshake"

end PbxAgent
