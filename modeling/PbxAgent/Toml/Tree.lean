import PbxAgent.Toml.Value

/-!
# Tables in the making

A table can come into being in three ways: under a header of its own, because a longer header names
it on the way, or because a key with dots does. Which of them it was decides what may still be added
to it.
-/

namespace PbxAgent.Toml

/-- How a table came into being. -/
inductive TableKind where
  /-- Under a header, or in braces. -/
  | declared
  /-- On the way to a table with a header. -/
  | implied
  /-- On the way to a key with dots. -/
  | dotted
  deriving DecidableEq, Repr

/-- What a name in a table stands for. -/
inductive Node where
  | value (v : Value)
  | table (kind : TableKind) (entries : List (String × Node))
  /-- Tables that have one header in common. -/
  | tables (all : List (List (String × Node)))

/-- The entries of a table, in order. -/
abbrev Entries := List (String × Node)

namespace Entries

/-- What a name stands for. -/
def get? (es : Entries) (name : String) : Option Node :=
  (es.find? (·.1 = name)).map (·.2)

/-- The entries with another node for a name that they have. -/
def replace (es : Entries) (name : String) (n : Node) : Entries :=
  es.map fun e => if e.1 = name then (name, n) else e

/-- The entries without a name. -/
def erase (es : Entries) (name : String) : Entries :=
  es.filter (·.1 ≠ name)

/-- Changes the table that a path leads to, making those on the way that are not there. A path of
a key, other than one of a header, does not lead through declared tables; neither leads through
values. -/
def within (ofKey : Bool) (change : TableKind → Entries → Option Entries) :
    List String → TableKind → Entries → Option Entries
  | [], kind, es => change kind es
  | name :: path, _, es =>
    match es.get? name with
    | none => do
      let kind := if ofKey then .dotted else .implied
      return es ++ [(name, .table kind (← within ofKey change path kind []))]
    | some (.table kind inner) =>
      if ofKey ∧ kind = .declared then none
      else do return es.replace name (.table kind (← within ofKey change path kind inner))
    | some (.tables all) => do
      let last ← all.getLast?
      return es.replace name (.tables (all.dropLast ++ [← within ofKey change path .declared last]))
    | some (.value _) => none

/-- A key and its value. -/
structure Entry where
  path : List String
  name : String
  value : Value

/-- Adds a value under a name that must be new. A key with dots adds to tables of its own kind only,
and one without dots to any other. -/
def put (es : Entries) (e : Entry) : Option Entries :=
  within true (fun kind es =>
    if decide (kind = .dotted) = e.path.isEmpty then none
    else if (es.get? e.name).isSome then none
    else some (es ++ [(e.name, .value e.value)])) e.path .declared es

/-- Adds values one after the other. -/
def putAll (es : Entries) (all : List Entry) : Option Entries :=
  all.foldlM put es

/-- A header with the entries under it. -/
structure Section where
  path : List String
  name : String
  /-- Whether the header may occur again, each time for another table. -/
  repeated : Bool
  entries : List Entry

/-- Adds the table of a header at the end of the one that its path leads to. What longer headers have
put into it already is kept in front. -/
def addSection (es : Entries) (s : Section) : Option Entries :=
  within false (fun _ es =>
    match s.repeated, es.get? s.name with
    | true, none => do return es ++ [(s.name, .tables [← putAll [] s.entries])]
    | true, some (.tables all) => do
      return es.replace s.name (.tables (all ++ [← putAll [] s.entries]))
    | false, none => do return es ++ [(s.name, .table .declared (← putAll [] s.entries))]
    | false, some (.table .implied inner) => do
      return es.erase s.name ++ [(s.name, .table .declared (← putAll inner s.entries))]
    | _, _ => none) s.path .declared es

end Entries

/-! ## Finished tables -/

mutual

/-- What a name stands for, once nothing will be added any more. -/
def Node.finish : Node → Value
  | .value v => v
  | .table _ es => .table (finishEntries es)
  | .tables all => .list (finishTables all)

def finishEntries : List (String × Node) → List (String × Value)
  | [] => []
  | (name, n) :: r => (name, n.finish) :: finishEntries r

def finishTables : List (List (String × Node)) → List Value
  | [] => []
  | es :: r => .table (finishEntries es) :: finishTables r

end

end PbxAgent.Toml
