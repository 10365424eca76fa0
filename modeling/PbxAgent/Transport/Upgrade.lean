import PbxAgent.Http.Fields
import PbxAgent.Http.Head
import PbxAgent.Http.Response

/-!
# Switching to a socket

The backend answers the request for a socket with a response head. What it must say is checked field
by field, and the first thing amiss is reported.
-/

namespace PbxAgent.Transport

open Http

/-- Why an answer does not open a socket. -/
inductive UpgradeError where
  /-- The answer ends before its head does. -/
  | incomplete
  /-- The answer does not begin with a head. -/
  | head (e : HeadError)
  /-- The head has more fields than are taken. -/
  | tooManyFields
  /-- The answer is in a version that has no sockets. -/
  | oldVersion
  /-- The status is no number from 100 to 999. -/
  | statusNumber
  /-- The backend refuses. -/
  | status (code : Nat)
  | upgradeField
  | connectionField
  | acceptField
  deriving DecidableEq, Repr

/-- A status with its registered phrase. -/
def statusText (code : Nat) : String :=
  toString code ++ " " ++ (reasonPhrase? code).getD "<unknown status code>"

def UpgradeError.message : UpgradeError → String
  | incomplete => "WebSocket protocol error: Handshake not finished"
  | head e => "WebSocket protocol error: httparse error: " ++ e.message
  | tooManyFields => "Space limit exceeded: Too many headers"
  | oldVersion => "WebSocket protocol error: HTTP version must be 1.1 or higher"
  | statusNumber => "HTTP format error: invalid status code"
  | status code => "HTTP error: " ++ statusText code
  | upgradeField => "WebSocket protocol error: No \"Upgrade: websocket\" header"
  | connectionField => "WebSocket protocol error: No \"Connection: upgrade\" header"
  | acceptField => "WebSocket protocol error: Key mismatch in \"Sec-WebSocket-Accept\" header"

/-! ## Reading the answer -/

/-- What the head of an answer says. -/
structure Answer where
  version : Version
  status : Nat
  fields : Fields
  deriving DecidableEq, Repr

namespace Answer

/-- Three digits. -/
def takeStatus (b : Bytes) : Except HeadError (Nat × Bytes) :=
  match b with
  | x :: y :: z :: r =>
    match Bytes.digit? x, Bytes.digit? y, Bytes.digit? z with
    | some x, some y, some z => .ok (x * 100 + y * 10 + z, r)
    | _, _, _ => .error .status
  | _ => if b.all (Bytes.digit? · |>.isSome) then .error .incomplete else .error .status

/-- Bytes of a phrase. -/
def isPhraseByte (c : UInt8) : Bool :=
  c = 0x09 || c = 0x20 || (0x21 ≤ c && c ≠ 0x7F)

/-- The phrase, if there is one, and the end of the line. -/
def endStatusLine : Bytes → Except HeadError Bytes
  | 0x20 :: r => Head.endLine .status .status (r.dropWhile isPhraseByte)
  | r => Head.endLine .status .status r

/-- The most fields that are taken. -/
def maxFields : Nat := 124

/-- Reads the head of an answer. -/
def parse (b : Bytes) : Except HeadError Answer := do
  let b ← Head.skipEmptyLines b
  let (version, b) ← Head.takeVersion b
  let b ← match b with
    | [] => .error .incomplete
    | c :: r => if c = 0x20 then .ok r else .error .version
  let (status, b) ← takeStatus b
  let b ← endStatusLine b
  let (lines, _) ← Head.fieldLines maxFields b
  return ⟨version, status, lines.foldl (fun fs line => fs.addNamed line.1 line.2) []⟩

/-- Whether the first value of a field is a word in letters of either case. -/
def hasWord (a : Answer) (name word : String) : Bool :=
  match (a.fields.values (Text.Utf8.encode name)).head? with
  | some v => Bytes.sameIgnoringCase v (Text.Utf8.encode word)
  | none => false

end Answer

/-- Checks an answer; `accept` is the key that it must give. -/
def checkAnswer (accept answer : Bytes) : Except UpgradeError Unit := do
  let a ← match Answer.parse answer with
    | .ok a => pure a
    | .error .incomplete => throw .incomplete
    | .error .tooManyFields => throw .tooManyFields
    | .error e => throw (.head e)
  if a.version = .http10 then throw .oldVersion
  if a.status < 100 then throw .statusNumber
  if a.status ≠ 101 then throw (.status a.status)
  if !a.hasWord "upgrade" "websocket" then throw .upgradeField
  if !a.hasWord "connection" "upgrade" then throw .connectionField
  if (a.fields.values (Text.Utf8.encode "sec-websocket-accept")).head? ≠ some accept then
    throw .acceptField

end PbxAgent.Transport
