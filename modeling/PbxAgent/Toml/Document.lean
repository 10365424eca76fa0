import PbxAgent.Toml.Scalar
import PbxAgent.Toml.Tree

/-!
# TOML documents

Values that hold others, the statements of a document, and the table that they add up to.
-/

namespace PbxAgent.Toml

open Entries (Entry Section)

/-! ## Values -/

/-- The values of a list up to its bracket; a comma may follow the last. -/
def listItems (item : Scanner Value) : Nat → Scanner (List Value)
  | 0, _ => none
  | fuel + 1, cs => do
    match ← skipLines false cs with
    | ']' :: r => return ([], r)
    | cs =>
      let (v, r) ← item cs
      match ← skipLines false r with
      | ',' :: r =>
        let (vs, r) ← listItems item fuel r
        return (v :: vs, r)
      | ']' :: r => return ([v], r)
      | _ => none

/-- A key with the names on the way to its last part. -/
def splitPath (names : List String) : Option (List String × String) := do
  return (names.dropLast, ← names.getLast?)

/-- A key, the sign and a value. -/
def entry (item : Scanner Value) (cs : List Char) : Option (Entry × List Char) := do
  let (names, r) ← keyPath maxKeyParts cs
  let (path, name) ← splitPath names
  let (v, r) ← item (skipSpaces (← expect '=' r))
  return (⟨path, name, v⟩, r)

/-- The entries of a table up to its brace, all on one line; no comma follows the last. -/
def tableItems (item : Scanner Value) : Nat → Scanner (List Entry)
  | 0, _ => none
  | fuel + 1, cs => do
    let (e, r) ← entry item cs
    match skipSpaces r with
    | ',' :: r =>
      let (es, r) ← tableItems item fuel r
      return (e :: es, r)
    | '}' :: r => return ([e], r)
    | _ => none

/-- A table in braces, from behind the first. -/
def inlineTable (item : Scanner Value) (cs : List Char) : Option (Value × List Char) :=
  match skipSpaces cs with
  | '}' :: r => some (.table [], r)
  | cs => do
    let (es, r) ← tableItems item (cs.length + 1) cs
    return (.table (finishEntries (← Entries.putAll [] es)), r)

/-- How deep values may lie within each other. -/
def maxDepth : Nat := 79

/-- A value that holds others to a depth. -/
def value : Nat → Scanner Value
  | 0, cs => scalar cs
  | depth + 1, cs =>
    match cs with
    | '[' :: r => (listItems (value depth) (r.length + 1) r).map fun (vs, r) => (.list vs, r)
    | '{' :: r => inlineTable (value depth) r
    | _ => scalar cs

/-! ## Statements -/

/-- What a line of a document says; a value may take up more lines. -/
inductive Statement where
  | entry (e : Entry)
  | header (path : List String) (name : String) (repeated : Bool)

/-- A header from behind its brackets, with the brackets that close it. -/
def header (repeated : Bool) (cs : List Char) : Option (Statement × List Char) := do
  let (names, r) ← keyPath maxKeyParts cs
  let (path, name) ← splitPath names
  let r ← expect ']' r
  let r ← if repeated then expect ']' r else some r
  return (.header path name repeated, r)

/-- One statement, with the rest of its line. -/
def statement (cs : List Char) : Option (Statement × List Char) := do
  let (s, r) ← match cs with
    | '[' :: '[' :: r => header true r
    | '[' :: r => header false r
    | _ => (entry (value maxDepth) cs).map fun (e, r) => (.entry e, r)
  return (s, ← endLine r)

/-- The statements of a document. -/
def statements : Nat → List Char → Option (List Statement)
  | 0, _ => none
  | fuel + 1, cs =>
    match skipSpaces cs with
    | [] => some []
    | c :: r =>
      if c = '#' || c = '\n' || c = '\r' then do statements fuel (← endLine (c :: r))
      else do
        let (s, rest) ← statement (c :: r)
        return s :: (← statements fuel rest)

/-- The entries in front of the first header, and the sections from there on. -/
def sections : List Statement → List Entry × List Section
  | [] => ([], [])
  | .entry e :: r =>
    let (es, ss) := sections r
    (e :: es, ss)
  | .header path name repeated :: r =>
    let (es, ss) := sections r
    ([], ⟨path, name, repeated, es⟩ :: ss)

/-! ## Documents -/

/-- The table that statements add up to, unless they contradict each other. -/
def assemble (all : List Statement) : Option Value := do
  let (es, ss) := sections all
  let top ← Entries.putAll [] es
  return .table (finishEntries (← ss.foldlM Entries.addSection top))

/-- A mark that may stand in front of a document. -/
def byteOrderMark : Char := '\uFEFF'

/-- Reads a document. -/
def parse (text : List Char) : Option Value := do
  let text := if text.head? = some byteOrderMark then text.drop 1 else text
  assemble (← statements (text.length + 1) text)

end PbxAgent.Toml
