import PbxAgent.Text.Visible

/-!
# Quoted text

Text in double quotes with escapes for what would not show, as error messages cite it.
-/

namespace PbxAgent.Text.Quoted

/-- A number in small hexadecimal digits without leading zeros. -/
def hexDigits (n : Nat) : List Char :=
  Nat.toDigits 16 n

/-- A character as it stands between quotes. -/
def escapeChar (c : Char) : List Char :=
  match c with
  | '\x00' => ['\\', '0']
  | '\t' => ['\\', 't']
  | '\r' => ['\\', 'r']
  | '\n' => ['\\', 'n']
  | '\\' => ['\\', '\\']
  | '"' => ['\\', '"']
  | c => if Visible.isVisible c then [c] else '\\' :: 'u' :: '{' :: hexDigits c.toNat ++ ['}']

/-- A text in quotes. -/
def quote (s : String) : String :=
  String.ofList ('"' :: s.toList.flatMap escapeChar ++ ['"'])

end PbxAgent.Text.Quoted
