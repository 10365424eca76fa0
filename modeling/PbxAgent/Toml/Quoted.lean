import PbxAgent.Text.Hex
import PbxAgent.Toml.Line

/-!
# Strings of TOML

Four kinds: between double quotes, where a backslash starts an escape, or between single quotes,
where nothing does; on one line, or between three quotes over any number of lines.
-/

namespace PbxAgent.Toml

/-! ## Escapes -/

/-- The scalar that so many hexadecimal digits name. -/
def hexEscape (count : Nat) (cs : List Char) : Option (Char × List Char) :=
  let digits := cs.take count
  let n := digits.foldl (fun n c => n * 16 + Text.Hex.value c) 0
  if digits.length = count ∧ digits.all Text.Hex.isDigit ∧ n.isValidChar then
    some (Char.ofNat n, cs.drop count)
  else none

/-- What an escape stands for, from behind its backslash. -/
def escape : Scanner Char
  | 'b' :: r => some ('\x08', r)
  | 'f' :: r => some ('\x0c', r)
  | 'n' :: r => some ('\n', r)
  | 'r' :: r => some ('\r', r)
  | 't' :: r => some ('\t', r)
  | '"' :: r => some ('"', r)
  | '\\' :: r => some ('\\', r)
  | 'u' :: r => hexEscape 4 r
  | 'U' :: r => hexEscape 8 r
  | _ => none

theorem length_hexEscape_le {count : Nat} {cs r : List Char} {c : Char}
    (h : hexEscape count cs = some (c, r)) : r.length ≤ cs.length := by
  simp only [hexEscape, Option.ite_none_right_eq_some, Option.some.injEq, Prod.mk.injEq] at h
  obtain ⟨-, -, rfl⟩ := h
  simp

theorem length_escape {cs r : List Char} {c : Char} (h : escape cs = some (c, r)) :
    r.length < cs.length := by
  unfold escape at h
  split at h
  case h_8 => have := length_hexEscape_le h; simp; omega
  case h_9 => have := length_hexEscape_le h; simp; omega
  all_goals simp_all

/-- What follows a backslash at the end of a line: the blank lines after it go with it. -/
def continuation? (cs : List Char) : Option (List Char) :=
  (newline? (skipSpaces cs)).map skipBlankLines

theorem length_dropWhile_le {α : Type} (p : α → Bool) (l : List α) :
    (l.dropWhile p).length ≤ l.length :=
  (List.dropWhile_sublist p).length_le

theorem length_continuation? {cs r : List Char} (h : continuation? cs = some r) :
    r.length < cs.length := by
  unfold continuation? at h
  obtain ⟨s, hs, rfl⟩ := Option.map_eq_some_iff.1 h
  have h1 := length_newline? hs
  have h2 := length_skipBlankLines_le s
  have h3 := length_dropWhile_le isSpace cs
  unfold skipSpaces at h1
  omega

/-! ## Strings -/

/-- The string up to the quote that closes it. -/
def lineString (quote : Char) (escapes : Bool) (cs : List Char) : Option (List Char × List Char) :=
  match cs with
  | [] => none
  | c :: r =>
    if c = quote then some ([], r)
    else if escapes && c = '\\' then
      match _h : escape r with
      | none => none
      | some (d, rest) => (lineString quote escapes rest).map fun (s, rest) => (d :: s, rest)
    else if isPlain c then (lineString quote escapes r).map fun (s, rest) => (c :: s, rest)
    else none
termination_by cs.length
decreasing_by
  · have := length_escape _h; simp; omega
  · simp

/-- The string up to the three quotes that close it; up to two more in front of them belong to
it. Ends of lines become line feeds. -/
def blockString (quote : Char) (escapes : Bool) (cs : List Char) :
    Option (List Char × List Char) :=
  match cs with
  | [] => none
  | c :: r =>
    if c = quote then
      let run := ((c :: r).takeWhile (· = quote)).length
      if 3 ≤ run then some (List.replicate (min (run - 3) 2) quote, r.drop (min run 5 - 1))
      else (blockString quote escapes r).map fun (s, rest) => (c :: s, rest)
    else if escapes && c = '\\' then
      match _h : continuation? r with
      | some rest => blockString quote escapes rest
      | none =>
        match _h : escape r with
        | none => none
        | some (d, rest) => (blockString quote escapes rest).map fun (s, rest) => (d :: s, rest)
    else if isPlain c then (blockString quote escapes r).map fun (s, rest) => (c :: s, rest)
    else
      match _h : newline? (c :: r) with
      | none => none
      | some rest => (blockString quote escapes rest).map fun (s, rest) => ('\n' :: s, rest)
termination_by cs.length
decreasing_by
  · simp
  · have := length_continuation? _h; simp; omega
  · have := length_escape _h; simp; omega
  · simp
  · have := length_newline? _h; simpa using this

/-- What follows the first end of a line, if a text begins with one. -/
def skipNewline (cs : List Char) : List Char :=
  (newline? cs).getD cs

/-- A string of any of the four kinds. -/
def string : Scanner String
  | '"' :: '"' :: '"' :: r => (blockString '"' true (skipNewline r)).map fun (s, r) => (.ofList s, r)
  | '\'' :: '\'' :: '\'' :: r =>
    (blockString '\'' false (skipNewline r)).map fun (s, r) => (.ofList s, r)
  | '"' :: r => (lineString '"' true r).map fun (s, r) => (.ofList s, r)
  | '\'' :: r => (lineString '\'' false r).map fun (s, r) => (.ofList s, r)
  | _ => none

/-! ## Keys -/

/-- Characters of keys without quotes. -/
def isBareKeyChar (c : Char) : Bool :=
  c.isAlphanum || c = '-' || c = '_'

/-- One part of a key. -/
def keyPart : Scanner String
  | '"' :: r => (lineString '"' true r).map fun (s, r) => (.ofList s, r)
  | '\'' :: r => (lineString '\'' false r).map fun (s, r) => (.ofList s, r)
  | cs =>
    let name := cs.takeWhile isBareKeyChar
    if name = [] then none else some (.ofList name, cs.dropWhile isBareKeyChar)

/-- The most parts that a key may have. -/
def maxKeyParts : Nat := 79

/-- A key with dots between its parts, of which there are `room` at most, and the blanks around
it. -/
def keyPath : Nat → Scanner (List String)
  | 0, _ => none
  | room + 1, cs => do
    let (name, r) ← keyPart (skipSpaces cs)
    match skipSpaces r with
    | '.' :: r =>
      let (names, r) ← keyPath room r
      return (name :: names, r)
    | r => return ([name], r)

end PbxAgent.Toml
