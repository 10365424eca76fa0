import PbxAgent.Credential.AdminPassword
import PbxAgent.Credential.LoginDigest
import PbxAgent.Error
import PbxAgent.Identity

/-!
# The handshake

The agent tells its identity, answers a challenge under the login password, and takes new passwords
into its vault. The backend drives every step and may take them in any order; the stage tells how
far it has come.
-/

namespace PbxAgent

open Schema (Decoder)
open Text (Utf8.encode)

/-- How far the handshake has come on this connection. -/
inductive Stage where
  | idle
  /-- The identity is ready to be sent. -/
  | identified
  /-- The identity has been sent. -/
  | awaitingChallenge
  | authenticated
  | passwordsRotated
  deriving DecidableEq, Repr

/-- Where the two passwords are kept. -/
structure CredentialPaths where
  loginPassword : String
  adminPassword : String
  deriving DecidableEq, Repr

/-- One side of the handshake. The digest in the identity answers the last challenge. -/
structure Handshake where
  identity : Identity
  vault : Vault
  paths : CredentialPaths
  stage : Stage := .idle
  deriving DecidableEq

namespace Handshake

/-! ## What the backend sends along -/

/-- The seed and the enciphered password of a rotation. -/
structure Rotation where
  seed : String := ""
  pwd : String := ""
  deriving DecidableEq, Repr

/-- The record that brings a new login password. -/
def passwordDecoder : Decoder String :=
  .record "PasswordPayload" "" [{ name := "password", read := Decoder.text.map fun s _ => s }]

/-- The record that brings a challenge. -/
def challengeDecoder : Decoder String :=
  .record "ChallengePayload" "" [{ name := "challenge", read := Decoder.text.map fun s _ => s }]

/-- The record that brings a new administrative password. -/
def rotationDecoder : Decoder Rotation :=
  .record "AdminPasswordPayload" {} [
    { name := "seed", read := Decoder.text.map fun s r => { r with seed := s } },
    { name := "pwd", read := Decoder.text.map fun s r => { r with pwd := s } }]

/-- Reads the record that a command brings. -/
def payload {α : Type} (d : Decoder α) (data : Bytes) : Except AgentError α :=
  (Json.parse d.json data).mapError fun e => .protocol (.payload e)

/-- A check as one of the agent's. -/
def checked {α : Type} (r : Except ValidationError α) : Except AgentError α :=
  r.mapError .validation

/-- The login password that a command brings, if it is of the right length. -/
def newLoginPassword (data : Bytes) : Except AgentError Bytes := do
  let password := Utf8.encode (← payload passwordDecoder data)
  checked (requireLength "password" password Credential.loginPasswordLength)
  return password

/-- The challenge that a command brings. -/
def newChallenge (data : Bytes) : Except AgentError String := do
  let challenge ← payload challengeDecoder data
  checked (requireNonempty "challenge" (Utf8.encode challenge))
  return challenge

/-- The seed and the enciphered password that a command brings. -/
def newRotation (data : Bytes) : Except AgentError Rotation := do
  let r ← payload rotationDecoder data
  checked do
    requireNonempty "seed" (Utf8.encode r.seed)
    requireLength "seed" (Utf8.encode r.seed) Credential.seedLength
    requireNonempty "pwd" (Utf8.encode r.pwd)
  return r

/-! ## Steps -/

/-- A handshake that has not begun. -/
def new (identity : Identity) (vault : Vault) (paths : CredentialPaths) : Handshake :=
  { identity := identity.withoutDigest, vault, paths }

/-- Back to where nothing has been said. -/
def reset (h : Handshake) : Handshake :=
  { h with identity := h.identity.withoutDigest, stage := .idle }

/-- The message that presents the identity. -/
def presentation (h : Handshake) : AdminMessage :=
  .of .sendIdentify h.identity.bytes

/-- Presents the identity without a digest. -/
def identify (h : Handshake) : AdminMessage × Handshake :=
  let h := { h with identity := h.identity.withoutDigest, stage := .identified }
  (h.presentation, h)

/-- Notes that the identity has been sent. -/
def identitySent (h : Handshake) : Handshake :=
  if h.stage = .identified then { h with stage := .awaitingChallenge } else h

/-- The login password in the vault. -/
def loginPassword (h : Handshake) (host : Host) : Except AgentError Bytes :=
  (h.vault.load h.paths.loginPassword host.files).mapError .credential

/-- Keeps a new login password. -/
def receiveLoginPassword (h : Handshake) (data : Bytes) (host : Host) :
    Except AgentError Unit × Host :=
  match newLoginPassword data with
  | .error e => (.error e, host)
  | .ok password =>
    let (result, host) := h.vault.store password h.paths.loginPassword host
    (result.mapError .credential, host)

/-- The digest that answers a challenge. -/
def answer (h : Handshake) (data : Bytes) (host : Host) : Except AgentError String := do
  let challenge ← newChallenge data
  let password ← h.loginPassword host
  checked (Credential.loginDigest h.identity.id h.identity.product h.identity.version challenge
    (Text.Utf8.decodeLossy password))

/-- Answers a challenge with the identity and the digest in it. -/
def receiveChallenge (h : Handshake) (data : Bytes) (host : Host) :
    Except AgentError AdminMessage × Handshake :=
  match h.answer data host with
  | .error e => (.error e, h)
  | .ok digest =>
    let h := { h with identity := { h.identity with digest := digest }, stage := .authenticated }
    (.ok h.presentation, h)

/-- The administrative password that a command brings. -/
def newAdminPassword (h : Handshake) (data : Bytes) (host : Host) : Except AgentError Bytes := do
  let r ← newRotation data
  let password ← h.loginPassword host
  checked (Credential.decryptAdminPassword password r.seed (Utf8.encode r.pwd))

/-- Keeps a new administrative password. -/
def receiveAdminPassword (h : Handshake) (data : Bytes) (host : Host) :
    Except AgentError Unit × Handshake × Host :=
  match h.newAdminPassword data host with
  | .error e => (.error e, h, host)
  | .ok password =>
    match h.vault.store password h.paths.adminPassword host with
    | (.error e, host) => (.error (.credential e), h, host)
    | (.ok (), host) => (.ok (), { h with stage := .passwordsRotated }, host)

/-- Acts on a message and gives the reply, if there is one. -/
def handle (h : Handshake) (m : AdminMessage) (host : Host) :
    Except AgentError (Option AdminMessage) × Handshake × Host :=
  match AdminCommand.ofCode? m.command with
  | some .receiveLoginPassword =>
    let (result, host) := h.receiveLoginPassword m.data host
    (result.map fun _ => none, h, host)
  | some .receiveChallenge =>
    let (result, h) := h.receiveChallenge m.data host
    (result.map some, h, host)
  | some .receiveAdminPassword =>
    let (result, h, host) := h.receiveAdminPassword m.data host
    (result.map fun _ => none, h, host)
  | _ => (.error (.protocol (.unknownCommand m.command)), h, host)

end Handshake

end PbxAgent
