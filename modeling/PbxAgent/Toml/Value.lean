import PbxAgent.Schema.Member

/-!
# TOML values

What a TOML document holds, and how records are filled from it. Tables keep their entries in the
order of the document, which decides which of two mismatches is met first.
-/

namespace PbxAgent.Toml

open Schema

/-- A value. What a date or time says is of no use here and not kept. -/
inductive Value where
  | text (s : String)
  | integer (i : Int)
  | float (x : Decimal.Binary64)
  | flag (b : Bool)
  | dateTime
  | list (vs : List Value)
  | table (entries : List (String × Value))

/-- Gets something out of a value. -/
abbrev Reader (α : Type) := Value → Except Mismatch α

/-- A value as mismatches tell of it; a date counts as a map. -/
def Value.found : Value → Found
  | text s => .text s
  | integer i => .integer i
  | float x => .float x
  | flag b => .flag b
  | dateTime => .map
  | list _ => .sequence
  | table _ => .map

/-! ## Scalars and lists -/

def text : Reader String
  | .text s => .ok s
  | v => .error (.type v.found "a string")

def flag : Reader Bool
  | .flag b => .ok b
  | v => .error (.type v.found "a boolean")

/-- A number that is not negative; `expected` names its range. -/
def natural (expected : String) : Reader Nat
  | .integer i => if 0 ≤ i then .ok i.toNat else .error (.value (.integer i) expected)
  | v => .error (.type v.found expected)

def list {α : Type} (read : Reader α) : Reader (List α)
  | .list vs => vs.mapM read
  | v => .error (.type v.found "a sequence")

/-! ## Records -/

/-- A member of a record in a TOML document. -/
abbrev Member (σ : Type) := Schema.Member Reader σ

/-- The entries of a table put into a record one after the other; unknown ones are left out. -/
def tableMembers {σ : Type} (members : List (Member σ)) :
    Draft σ → List (String × Value) → Except Mismatch (Draft σ)
  | d, [] => .ok d
  | d, (key, v) :: r =>
    match members.find? (·.answersTo key) with
    | none => tableMembers members d r
    | some m =>
      if d.seen.contains m.name then .error (.duplicate m.name)
      else do tableMembers members (d.put m.name (← m.read v)) r

/-- The record of a table. -/
def fromTable {σ : Type} (start : σ) (members : List (Member σ)) (entries : List (String × Value)) :
    Except Mismatch σ := do
  let d ← tableMembers members { value := start } entries
  match firstMissing members d.seen with
  | some name => .error (.missing name)
  | none => return d.value

/-- The members of a record given as a list, in their order; what the list has past them is left
out. -/
def listMembers {σ : Type} (expected : String) :
    List (Member σ) → Nat → σ → List Value → Except Mismatch σ
  | [], _, s, _ => .ok s
  | m :: ms, count, s, v :: vs => do listMembers expected ms (count + 1) ((← m.read v) s) vs
  | m :: ms, count, s, [] =>
    if m.required then .error (.length count expected)
    else listMembers expected ms (count + 1) s []

/-- A record, as a table or as a list of its members' values. A date is a table that has no known
member. -/
def record {σ : Type} (title : String) (start : σ) (members : List (Member σ)) : Reader σ
  | .table entries => fromTable start members entries
  | .dateTime => fromTable start members []
  | .list vs => listMembers (elementsOf title members.length) members 0 start vs
  | v => .error (.type v.found ("struct " ++ title))

end PbxAgent.Toml
