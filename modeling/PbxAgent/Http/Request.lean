import PbxAgent.Http.Chunked
import PbxAgent.Http.Fields
import PbxAgent.Http.Head
import PbxAgent.Http.Uri
import PbxAgent.Text.Blank

/-!
# Requests

A request as it is handed on: the body is out of its framing, and the fields that told the framing
have given way to one that tells the body's length.
-/

namespace PbxAgent.Http

/-- A request with its body. -/
structure Request where
  method : Bytes
  uri : Uri
  version : Version
  fields : Fields
  body : Bytes
  deriving DecidableEq, Repr

/-- Why bytes are no request. -/
inductive RequestError where
  | head (e : HeadError)
  | contentLength
  | transferEncoding (coding : String)
  | shortBody (actual declared : Nat)
  | chunks (e : Chunked.ChunkError)
  | target (e : UriError)
  /-- The name of a field is too long to be handed on. -/
  | fieldName
  deriving DecidableEq, Repr

def RequestError.message : RequestError → String
  | head e => e.message
  | contentLength => "invalid Content-Length"
  | transferEncoding coding => "unsupported Transfer-Encoding: " ++ coding
  | shortBody actual declared => s!"body has {actual} bytes, Content-Length says {declared}"
  | chunks e => e.message
  | target e => e.message
  | fieldName => "invalid HTTP header name"

/-! ## Framing -/

/-- The number below `2 ^ 64` that decimal digits stand for, possibly with a plus in front. -/
def parseLength (cs : List Char) : Option Nat :=
  let digits := match cs with
    | '+' :: r => r
    | _ => cs
  if digits = [] ∨ !digits.all Char.isDigit then none
  else
    let n := digits.foldl (fun n c => n * 10 + (c.toNat - 0x30)) 0
    if n < UInt64.size then some n else none

/-- The length that a field value declares. -/
def declaredLength (value : Bytes) : Option Nat := do
  parseLength (Text.trim (← Text.Utf8.decodeChars? value))

def chunkedCoding : Bytes := [0x63, 0x68, 0x75, 0x6E, 0x6B, 0x65, 0x64]

/-- The coding that a field value names, unless it is the one for chunks. -/
def otherCoding (value : Bytes) : Option String :=
  let coding := Text.trim (Text.Utf8.decodeLossy value).toList
  if Bytes.sameIgnoringCase (Text.Utf8.encodeChars coding) chunkedCoding then none
  else some (String.ofList coding)

/-- What the fields of a head say about the body, and the fields that say nothing about it. -/
structure Framing where
  length : Option Nat := none
  chunked : Bool := false
  others : Fields := []
  deriving DecidableEq, Repr

/-- Takes in one field. Of several lengths the last one counts. -/
def Framing.add (f : Framing) (name value : Bytes) : Except RequestError Framing :=
  let lower := name.map Bytes.toLower
  if lower = contentLengthName then
    match declaredLength value with
    | some n => .ok { f with length := some n }
    | none => .error .contentLength
  else if lower = transferEncodingName then
    match otherCoding value with
    | none => .ok { f with chunked := true }
    | some coding => .error (.transferEncoding coding)
  else .ok { f with others := f.others.add lower value }

/-- What the fields of a head say, taken in order. -/
def Framing.ofLines (lines : List (Bytes × Bytes)) : Except RequestError Framing :=
  lines.foldlM (fun f (line : Bytes × Bytes) => f.add line.1 line.2) {}

/-- The body at the front of some bytes. Chunks go before a declared length. -/
def Framing.body (f : Framing) (rest : Bytes) : Except RequestError Bytes :=
  if f.chunked then
    match Chunked.decode rest with
    | .ok b => .ok b
    | .error e => .error (.chunks e)
  else match f.length with
  | none => .ok []
  | some n => if rest.length < n then .error (.shortBody rest.length n) else .ok (rest.take n)

/-- The decimal digits of a number. -/
def decimalBytes (n : Nat) : Bytes :=
  Text.Utf8.encodeChars (Nat.toDigits 10 n)

/-- The fields to hand on: where there was a framing, the length of the body comes last. -/
def Framing.fields (f : Framing) (body : Bytes) : Fields :=
  if f.chunked || f.length.isSome then f.others.add contentLengthName (decimalBytes body.length)
  else f.others

/-! ## Requests -/

/-- The most bytes that the name of a field may have. -/
def maxFieldName : Nat := 65535

/-- Reads a request. What follows it is left alone. -/
def Request.parse (b : Bytes) : Except RequestError Request :=
  match Head.parse b with
  | .error e => .error (.head e)
  | .ok (head, rest) => do
    let framing ← Framing.ofLines head.fields
    let body ← framing.body rest
    match Uri.parse head.target with
    | .error e => .error (.target e)
    | .ok uri =>
      if head.fields.any (maxFieldName < ·.1.length) then .error .fieldName
      else return ⟨head.method, uri, head.version, framing.fields body, body⟩

end PbxAgent.Http
