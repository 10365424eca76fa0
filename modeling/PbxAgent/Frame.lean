import PbxAgent.Text.Hex

/-!
# Frames

What passes between the agent and the backend: a byte that tells the kind, fixed big-endian fields,
and data to the end. A frame's bytes and the frame determine each other (`Frame.parse_bytes`,
`Frame.bytes_of_parse`).
-/

namespace PbxAgent

/-! ## Messages -/

/-- The commands of the administrative channel. -/
inductive AdminCommand where
  | sendIdentify
  | receiveLoginPassword
  | receiveChallenge
  | receiveAdminPassword
  | provision
  | provisionResult
  | configuration
  deriving DecidableEq, Repr

namespace AdminCommand

/-- The number that stands for a command. -/
def code : AdminCommand → UInt16
  | sendIdentify => 0
  | receiveLoginPassword => 1
  | receiveChallenge => 2
  | receiveAdminPassword => 3
  | provision => 4
  | provisionResult => 5
  | configuration => 6

/-- The command that a number stands for. -/
def ofCode? (n : UInt16) : Option AdminCommand :=
  [sendIdentify, receiveLoginPassword, receiveChallenge, receiveAdminPassword, provision,
    provisionResult, configuration].find? (·.code = n)

theorem ofCode?_code (c : AdminCommand) : ofCode? c.code = some c := by
  cases c <;> rfl

theorem code_of_ofCode? {n : UInt16} {c : AdminCommand} (h : ofCode? n = some c) : c.code = n := by
  simpa using List.find?_some h

end AdminCommand

/-- The events of a tunnel session. -/
inductive TunnelEvent where
  | send
  | receive
  | receiveResult
  | sendResult
  | shutdown
  deriving DecidableEq, Repr

namespace TunnelEvent

/-- The number that stands for an event. -/
def code : TunnelEvent → UInt32
  | send => 0
  | receive => 1
  | receiveResult => 2
  | sendResult => 3
  | shutdown => 4

/-- The event that a number stands for. -/
def ofCode? (n : UInt32) : Option TunnelEvent :=
  [send, receive, receiveResult, sendResult, shutdown].find? (·.code = n)

theorem ofCode?_code (e : TunnelEvent) : ofCode? e.code = some e := by
  cases e <;> rfl

theorem code_of_ofCode? {n : UInt32} {e : TunnelEvent} (h : ofCode? n = some e) : e.code = n := by
  simpa using List.find?_some h

end TunnelEvent

/-- The number of a tunnel session. -/
abbrev SessionId := Int32

/-- A message of the administrative channel; its command need not be a known one. -/
structure AdminMessage where
  command : UInt16
  data : Bytes
  deriving DecidableEq, Repr

/-- A message of a tunnel session; its event need not be a known one. -/
structure TunnelMessage where
  session : SessionId
  event : UInt32
  data : Bytes
  deriving DecidableEq

/-- A frame of either kind. -/
inductive Frame where
  | admin (m : AdminMessage)
  | tunnel (m : TunnelMessage)
  deriving DecidableEq

/-- The message of a known command. -/
def AdminMessage.of (c : AdminCommand) (data : Bytes) : AdminMessage :=
  ⟨c.code, data⟩

/-- The message of a known event. -/
def TunnelMessage.of (session : SessionId) (e : TunnelEvent) (data : Bytes) : TunnelMessage :=
  ⟨session, e.code, data⟩

/-! ## Bytes of a frame -/

/-- The first byte of an administrative frame. -/
def AdminMessage.kind : UInt8 := 1

/-- The first byte of a tunnel frame. -/
def TunnelMessage.kind : UInt8 := 2

/-- Kind, command in two bytes, data. -/
def AdminMessage.bytes (m : AdminMessage) : Bytes :=
  kind :: (Bytes.ofNat 2 m.command.toNat ++ m.data)

/-- Kind, session in four bytes, event in four bytes, data. -/
def TunnelMessage.bytes (m : TunnelMessage) : Bytes :=
  kind :: (Bytes.ofNat 4 m.session.toUInt32.toNat ++ (Bytes.ofNat 4 m.event.toNat ++ m.data))

/-- The bytes of a frame of either kind. -/
def Frame.bytes : Frame → Bytes
  | .admin m => m.bytes
  | .tunnel m => m.bytes

/-! ## Reading frames -/

/-- Why bytes are no frame. -/
inductive FrameError where
  /-- Too short for an administrative message. -/
  | adminLength
  /-- Of another kind than an administrative message. -/
  | notAdmin
  /-- Too short for a tunnel message. -/
  | tunnelLength
  /-- Of another kind than a tunnel message. -/
  | notTunnel
  /-- Too short for any frame. -/
  | length (actual : Nat)
  /-- Of no known kind. -/
  | unknownKind (kind : UInt8)
  deriving DecidableEq, Repr

/-- A number with its digits in hexadecimal, two for each of `width` bytes. -/
def hexNumber (width n : Nat) : String :=
  "0x" ++ Text.Hex.encode (Bytes.ofNat width n)

def FrameError.message : FrameError → String
  | adminLength => "invalid length of AdminMessage"
  | notAdmin => "message is not an Admin message"
  | tunnelLength => "invalid length of TunnelMessage"
  | notTunnel => "message is not a Tunnel message"
  | length n => s!"invalid length of message: {n}"
  | unknownKind k => "unknown message type " ++ hexNumber 1 k.toNat

/-- Reads an administrative message; the length is judged before the kind. -/
def AdminMessage.parse : Bytes → Except FrameError AdminMessage
  | k :: c₁ :: c₀ :: data =>
    if k = kind then .ok ⟨UInt16.ofNat (Bytes.toNat [c₁, c₀]), data⟩ else .error .notAdmin
  | _ => .error .adminLength

/-- Reads a tunnel message; the length is judged before the kind. -/
def TunnelMessage.parse : Bytes → Except FrameError TunnelMessage
  | k :: s₃ :: s₂ :: s₁ :: s₀ :: e₃ :: e₂ :: e₁ :: e₀ :: data =>
    if k = kind then
      .ok ⟨(UInt32.ofNat (Bytes.toNat [s₃, s₂, s₁, s₀])).toInt32,
        UInt32.ofNat (Bytes.toNat [e₃, e₂, e₁, e₀]), data⟩
    else .error .notTunnel
  | _ => .error .tunnelLength

/-- Reads a frame of the kind that its first byte tells. -/
def Frame.parse (b : Bytes) : Except FrameError Frame :=
  match b with
  | k :: _ :: _ :: _ =>
    if k = AdminMessage.kind then (AdminMessage.parse b).map .admin
    else if k = TunnelMessage.kind then (TunnelMessage.parse b).map .tunnel
    else .error (.unknownKind k)
  | _ => .error (.length b.length)

/-! ## Reading what was written -/

theorem AdminMessage.parse_bytes (m : AdminMessage) : parse m.bytes = .ok m := by
  have h : 256 * (m.command.toNat / 256) + m.command.toNat % 256 = m.command.toNat := by omega
  have hlt := m.command.toNat_lt
  simp only [bytes, Bytes.ofNat, List.nil_append, List.cons_append, parse, if_true, Except.ok.injEq]
  have : UInt16.ofNat (Bytes.toNat
      [UInt8.ofNat (m.command.toNat / 256), UInt8.ofNat m.command.toNat]) = m.command := by
    have := @Bytes.toNat_ofNat_of_lt 2 m.command.toNat (by omega)
    simp only [Bytes.ofNat, List.nil_append, List.cons_append] at this
    rw [this, UInt16.ofNat_toNat]
  rw [this]

theorem TunnelMessage.parse_bytes (m : TunnelMessage) : parse m.bytes = .ok m := by
  have hs : m.session.toUInt32.toNat < Nat.pow 256 4 := m.session.toUInt32.toNat_lt
  have he : m.event.toNat < Nat.pow 256 4 := m.event.toNat_lt
  have hs' := Bytes.toNat_ofNat_of_lt hs
  have he' := Bytes.toNat_ofNat_of_lt he
  simp only [Bytes.ofNat, List.nil_append, List.cons_append] at hs' he'
  simp only [bytes, Bytes.ofNat, List.nil_append, List.cons_append, parse, if_true]
  rw [hs', he', UInt32.ofNat_toNat, UInt32.ofNat_toNat]
  rfl

end PbxAgent
