import PbxAgent.Text.Hex
import PbxAgent.Text.Utf8

/-!
# JSON values and their text

Values are written without any blanks, members in the order given. Strings have quotes, backslashes
and controls escaped and nothing else.
-/

namespace PbxAgent.Json

/-- A value to be written. -/
inductive Value where
  | null
  | flag (b : Bool)
  | natural (n : Nat)
  | string (s : String)
  | list (vs : List Value)
  | object (members : List (String × Value))

/-! ## Strings -/

/-- How a character stands in a string: short escapes where there are some, four digits for the
other controls, itself otherwise. -/
def escapeChar (c : Char) : List Char :=
  match c with
  | '"' => ['\\', '"']
  | '\\' => ['\\', '\\']
  | '\x08' => ['\\', 'b']
  | '\x0c' => ['\\', 'f']
  | '\n' => ['\\', 'n']
  | '\r' => ['\\', 'r']
  | '\t' => ['\\', 't']
  | c =>
    if c.toNat < 0x20 then
      ['\\', 'u', '0', '0', Text.Hex.digit (c.toNat / 16), Text.Hex.digit (c.toNat % 16)]
    else [c]

/-- A text between quotes. -/
def printString (s : String) : List Char :=
  '"' :: (s.toList.flatMap escapeChar ++ ['"'])

/-! ## Values -/

mutual

/-- The text of a value. -/
def Value.print : Value → List Char
  | .null => ['n', 'u', 'l', 'l']
  | .flag true => ['t', 'r', 'u', 'e']
  | .flag false => ['f', 'a', 'l', 's', 'e']
  | .natural n => Nat.toDigits 10 n
  | .string s => printString s
  | .list vs => '[' :: (printElements vs ++ [']'])
  | .object ms => '{' :: (printMembers ms ++ ['}'])

/-- Values with commas between them. -/
def printElements : List Value → List Char
  | [] => []
  | [v] => v.print
  | v :: w :: r => v.print ++ ',' :: printElements (w :: r)

/-- Members with commas between them. -/
def printMembers : List (String × Value) → List Char
  | [] => []
  | [(k, v)] => printString k ++ ':' :: v.print
  | (k, v) :: m :: r => printString k ++ ':' :: (v.print ++ ',' :: printMembers (m :: r))

end

/-- The text of a value. -/
def Value.text (v : Value) : String :=
  String.ofList v.print

/-- The bytes of a value's text. -/
def Value.bytes (v : Value) : Bytes :=
  Text.Utf8.encodeChars v.print

end PbxAgent.Json
