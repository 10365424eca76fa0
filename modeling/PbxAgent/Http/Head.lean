import PbxAgent.Text.Utf8

/-!
# Request heads

The first part of a request, up to the empty line: method, target and version in one line, then the
fields, one a line. Lines end in a line feed that a carriage return may precede. A head is read from
the front of what has arrived, so that a head cut short is told from a wrong one.
-/

namespace PbxAgent.Http

/-- Versions of the protocol. -/
inductive Version where
  | http10
  | http11
  deriving DecidableEq, Repr

/-- What a head says. -/
structure Head where
  method : Bytes
  target : Bytes
  version : Version
  fields : List (Bytes × Bytes)
  deriving DecidableEq, Repr

/-- Why some bytes do not begin with a head. -/
inductive HeadError where
  /-- They end before the head does. -/
  | incomplete
  | token
  | version
  | newLine
  | fieldName
  | fieldValue
  | tooManyFields
  /-- Of an answer: no status of three digits, or a phrase that is none. -/
  | status
  deriving DecidableEq, Repr

def HeadError.message : HeadError → String
  | incomplete => "incomplete request head"
  | token => "invalid token"
  | version => "invalid HTTP version"
  | newLine => "invalid new line"
  | fieldName => "invalid header name"
  | fieldValue => "invalid header value"
  | tooManyFields => "too many headers"
  | status => "invalid response status"

namespace Head

/-! ## Classes of bytes -/

/-- Bytes of methods and of field names. -/
def isToken (c : UInt8) : Bool :=
  (0x30 ≤ c && c ≤ 0x39) || (0x41 ≤ c && c ≤ 0x5A) || (0x5E ≤ c && c ≤ 0x7A)
    || ([0x21, 0x23, 0x24, 0x25, 0x26, 0x27, 0x2A, 0x2B, 0x2D, 0x2E, 0x7C, 0x7E] : Bytes).contains c

/-- Bytes of targets: whatever is visible, and all that is not ASCII. -/
def isTargetByte (c : UInt8) : Bool :=
  0x21 ≤ c && c ≠ 0x7F

/-- Bytes of field values. -/
def isValueByte (c : UInt8) : Bool :=
  c = 0x09 || (0x20 ≤ c && c ≠ 0x7F)

def isBlank (c : UInt8) : Bool :=
  c = 0x20 || c = 0x09

/-! ## The request line -/

/-- Goes over empty lines in front of a request. -/
def skipEmptyLines : Bytes → Except HeadError Bytes
  | [] => .error .incomplete
  | c :: r =>
    if c = 0x0A then skipEmptyLines r
    else if c ≠ 0x0D then .ok (c :: r)
    else match r with
    | [] => .error .incomplete
    | d :: r => if d = 0x0A then skipEmptyLines r else .error .newLine

/-- A run of bytes of one class that is not empty and has a space behind it. -/
def word (isByte : UInt8 → Bool) (b : Bytes) : Except HeadError (Bytes × Bytes) :=
  match b.dropWhile isByte with
  | [] => .error .incomplete
  | c :: r =>
    if c = 0x20 ∧ (b.takeWhile isByte) ≠ [] then .ok (b.takeWhile isByte, r) else .error .token

/-- What all versions have in common: the protocol's name and the first digit. -/
def versionStem : Bytes := [0x48, 0x54, 0x54, 0x50, 0x2F, 0x31, 0x2E]

/-- The version. If it is cut short, what is there must be the beginning of one. -/
def takeVersion (b : Bytes) : Except HeadError (Version × Bytes) :=
  if b.length < 8 then
    if b.isPrefixOf versionStem then .error .incomplete else .error .version
  else if versionStem.isPrefixOf b then
    match b.drop 7 with
    | 0x30 :: r => .ok (.http10, r)
    | 0x31 :: r => .ok (.http11, r)
    | _ => .error .version
  else .error .version

/-- Goes over the end of a line, taking `fault` for anything else. -/
def endLine (fault afterReturn : HeadError) : Bytes → Except HeadError Bytes
  | [] => .error .incomplete
  | c :: r =>
    if c = 0x0A then .ok r
    else if c ≠ 0x0D then .error fault
    else match r with
    | [] => .error .incomplete
    | d :: r => if d = 0x0A then .ok r else .error afterReturn

/-! ## Fields -/

/-- A value without the blanks at its end. -/
def trimEnd (v : Bytes) : Bytes :=
  (v.reverse.dropWhile isBlank).reverse

/-- One field with its line's end. -/
def field (b : Bytes) : Except HeadError ((Bytes × Bytes) × Bytes) :=
  let name := b.takeWhile isToken
  match b.dropWhile isToken with
  | [] => .error .incomplete
  | c :: r =>
    if c ≠ 0x3A ∨ name = [] then .error .fieldName
    else do
      let r := r.dropWhile isBlank
      let rest ← endLine .fieldValue .fieldValue (r.dropWhile isValueByte)
      return ((name, trimEnd (r.takeWhile isValueByte)), rest)

/-- The fields up to the empty line, `room` of them at most. -/
def fieldLines : Nat → Bytes → Except HeadError (List (Bytes × Bytes) × Bytes)
  | room, b =>
    match b with
    | [] => .error .incomplete
    | c :: _ =>
      if c = 0x0A ∨ c = 0x0D then do return ([], ← endLine .newLine .newLine b)
      else do
        let (f, rest) ← field b
        match room with
        | 0 => .error .tooManyFields
        | room + 1 =>
          let (fs, rest) ← fieldLines room rest
          return (f :: fs, rest)

/-- The most fields that a head may have. -/
def maxFields : Nat := 64

/-- Reads a head and gives the bytes behind it. The target must be well-formed text. -/
def parse (b : Bytes) : Except HeadError (Head × Bytes) := do
  let b ← skipEmptyLines b
  let (method, b) ← word isToken b
  let (target, b) ← word isTargetByte b
  if !Text.Utf8.isValid target then throw .token
  let (version, b) ← takeVersion b
  let b ← endLine .newLine .newLine b
  let (fs, rest) ← fieldLines maxFields b
  return (⟨method, target, version, fs⟩, rest)

end Head

end PbxAgent.Http
