import PbxAgent.Bytes

/-!
# Lines of TOML

Blanks, comments and the ends of lines. A scanner reads something off the front of a text; where it
gives nothing the text is no TOML, unless another scanner is tried in its place.
-/

namespace PbxAgent.Toml

/-- Reads something off the front of a text. -/
abbrev Scanner (α : Type) := List Char → Option (α × List Char)

def isSpace (c : Char) : Bool :=
  c = ' ' || c = '\t'

/-- Characters that stand for themselves: all but the controls, of which the tab is none. -/
def isPlain (c : Char) : Bool :=
  c = '\t' || (0x20 ≤ c.toNat && c.toNat ≠ 0x7F)

def skipSpaces (cs : List Char) : List Char :=
  cs.dropWhile isSpace

/-- What follows the end of a line: a line feed, which a carriage return may precede. -/
def newline? : List Char → Option (List Char)
  | '\n' :: r => some r
  | '\r' :: '\n' :: r => some r
  | _ => none

/-- What follows a comment, if there is one. -/
def skipComment : List Char → List Char
  | '#' :: r => r.dropWhile isPlain
  | cs => cs

/-- What follows the rest of a line that has nothing more to say. -/
def endLine (cs : List Char) : Option (List Char) :=
  match skipSpaces cs with
  | cs => match skipComment cs with
    | [] => some []
    | r => newline? r

/-- What follows blanks, comments and ends of lines; every comment must have an end. -/
def skipLines (inComment : Bool) : List Char → Option (List Char)
  | [] => if inComment then none else some []
  | c :: r =>
    if c = '\n' then skipLines false r
    else if c = '\r' then
      match r with
      | '\n' :: r => skipLines false r
      | _ => none
    else if inComment then if isPlain c then skipLines true r else none
    else if isSpace c then skipLines false r
    else if c = '#' then skipLines true r
    else some (c :: r)

/-- What follows blanks and ends of lines. -/
def skipBlankLines : List Char → List Char
  | [] => []
  | c :: r =>
    if c = '\n' || isSpace c then skipBlankLines r
    else if c = '\r' then
      match r with
      | '\n' :: r => skipBlankLines r
      | _ => c :: r
    else c :: r

theorem length_skipBlankLines_le (cs : List Char) : (skipBlankLines cs).length ≤ cs.length := by
  fun_induction skipBlankLines cs <;> simp_all <;> omega

theorem length_newline? {cs r : List Char} (h : newline? cs = some r) : r.length < cs.length := by
  unfold newline? at h
  split at h <;> cases h <;> simp only [List.length_cons] <;> omega

end PbxAgent.Toml
