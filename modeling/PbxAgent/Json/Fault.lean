import PbxAgent.Bytes
import PbxAgent.Schema.Mismatch

/-!
# Faults in JSON text

A fault is a cause and a place. While a text is read the place is kept as the number of bytes
after it, which every reader knows without looking back; line and column are worked out at the
end, from the whole text.
-/

namespace PbxAgent.Json

/-- What is wrong with a text. -/
inductive Cause where
  | eofInList
  | eofInObject
  | eofInString
  | eofInValue
  | expectedColon
  | expectedListCommaOrEnd
  | expectedObjectCommaOrEnd
  | expectedLiteral
  | expectedValue
  | invalidEscape
  | invalidNumber
  | numberOutOfRange
  | invalidUnicode
  | controlCharacter
  | keyMustBeString
  | loneSurrogate
  | trailingComma
  | trailingCharacters
  | unexpectedEndOfEscape
  | mismatch (m : Schema.Mismatch)
  deriving DecidableEq, Repr

/-- A cause and the number of bytes after its place. -/
structure Fault where
  cause : Cause
  left : Nat
  deriving DecidableEq, Repr

/-- A fault before the bytes `rest`. -/
def Fault.before (cause : Cause) (rest : Bytes) : Fault :=
  ⟨cause, rest.length⟩

/-- A fault at the first of the bytes `rest`, or at the end of the text if there is none. -/
def Fault.atHead (cause : Cause) (rest : Bytes) : Fault :=
  ⟨cause, rest.length - 1⟩

/-- Reads something off the front of a text. -/
abbrev Reader (α : Type) := Bytes → Except Fault (α × Bytes)

/-! ## Wording -/

def Cause.message : Cause → String
  | eofInList => "EOF while parsing a list"
  | eofInObject => "EOF while parsing an object"
  | eofInString => "EOF while parsing a string"
  | eofInValue => "EOF while parsing a value"
  | expectedColon => "expected \x60:\x60"
  | expectedListCommaOrEnd => "expected \x60,\x60 or \x60]\x60"
  | expectedObjectCommaOrEnd => "expected \x60,\x60 or \x60\x7d\x60"
  | expectedLiteral => "expected ident"
  | expectedValue => "expected value"
  | invalidEscape => "invalid escape"
  | invalidNumber => "invalid number"
  | numberOutOfRange => "number out of range"
  | invalidUnicode => "invalid unicode code point"
  | controlCharacter => "control character (\\u0000-\\u001F) found while parsing a string"
  | keyMustBeString => "key must be a string"
  | loneSurrogate => "lone leading surrogate in hex escape"
  | trailingComma => "trailing comma"
  | trailingCharacters => "trailing characters"
  | unexpectedEndOfEscape => "unexpected end of hex escape"
  | mismatch m => m.message Decimal.Binary64.compactText

/-- A place in a text: lines count from one, columns are the bytes before it in its line. -/
structure Position where
  line : Nat
  column : Nat
  deriving DecidableEq, Repr

/-- The place with `left` bytes of the text after it. -/
def position (text : Bytes) (left : Nat) : Position :=
  let before := text.take (text.length - left)
  ⟨1 + before.count 0x0A, (before.reverse.takeWhile (· ≠ 0x0A)).length⟩

/-- A fault with its place in the text told as line and column. -/
structure Error where
  cause : Cause
  position : Position
  deriving DecidableEq, Repr

def Fault.locate (text : Bytes) (f : Fault) : Error :=
  ⟨f.cause, Json.position text f.left⟩

def Error.message (e : Error) : String :=
  s!"{e.cause.message} at line {e.position.line} column {e.position.column}"

end PbxAgent.Json
