import PbxAgent.Frame
import PbxAgent.Http.Request
import PbxAgent.Json.Fault
import PbxAgent.Transport.Error
import PbxAgent.Validation
import PbxAgent.Vault

/-!
# Errors of the agent

All that can go wrong with a message. A message that fails is dropped; only an error of the
transport ends the connection.
-/

namespace PbxAgent

/-- Why a well-formed frame cannot be acted on. -/
inductive ProtocolError where
  | unknownCommand (code : UInt16)
  | unknownEvent (code : UInt32)
  /-- The data is not the record that the command takes. -/
  | payload (e : Json.Error)
  /-- The data is no request. -/
  | request (e : Http.RequestError)
  /-- The handler gave no response. -/
  | handler (text : String)
  deriving DecidableEq, Repr

def ProtocolError.message : ProtocolError → String
  | unknownCommand code => "unknown Admin command " ++ hexNumber 2 code.toNat
  | unknownEvent code => "unknown Tunnel event " ++ hexNumber 4 code.toNat
  | payload e => "invalid payload: " ++ e.message
  | request e => "invalid tunneled HTTP request: " ++ e.message
  | handler text => "invalid tunneled HTTP request: " ++ text

/-- Why a message failed. -/
inductive AgentError where
  | frame (e : FrameError)
  | protocol (e : ProtocolError)
  | credential (e : CredentialError)
  | validation (e : ValidationError)
  /-- All that was to be fetched on a session has been. -/
  | noChunksLeft (session : SessionId)
  | transport (e : TransportError)
  deriving DecidableEq

namespace AgentError

def message : AgentError → String
  | frame e => e.message
  | protocol e => e.message
  | credential e => e.message
  | validation e => e.message
  | noChunksLeft _ => "no chunks left to send"
  | transport e => e.message

/-- Whether the connection ends with the error. -/
def isTransport : AgentError → Bool
  | transport _ => true
  | _ => false

end AgentError

end PbxAgent
