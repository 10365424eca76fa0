import PbxAgent.Decimal.Format
import PbxAgent.Text.Quoted

/-!
# Mismatches

What can be wrong with a document that is well formed but does not fit the record it should fill.
-/

namespace PbxAgent.Schema

/-- What stood where something else was expected. -/
inductive Found where
  | null
  | flag (b : Bool)
  | integer (i : Int)
  | float (x : Decimal.Binary64)
  | text (s : String)
  | sequence
  | map
  deriving DecidableEq, Repr

/-- How a document and a record disagree. -/
inductive Mismatch where
  /-- A value of the wrong type. -/
  | type (found : Found) (expected : String)
  /-- A value of the right type out of its range. -/
  | value (found : Found) (expected : String)
  /-- A sequence that ends before all that must be there. -/
  | length (actual : Nat) (expected : String)
  /-- A member that must be there and is not. -/
  | missing (name : String)
  /-- A member that is there twice. -/
  | duplicate (name : String)
  deriving DecidableEq, Repr

/-- The words for a value; formats differ in how they write floats. -/
def Found.describe (floatText : Decimal.Binary64 → String) : Found → String
  | null => "null"
  | flag b => s!"boolean \x60{b}\x60"
  | integer i => s!"integer \x60{i}\x60"
  | float x => "floating point \x60" ++ floatText x ++ "\x60"
  | text s => "string " ++ Text.Quoted.quote s
  | sequence => "sequence"
  | map => "map"

def Mismatch.message (floatText : Decimal.Binary64 → String) : Mismatch → String
  | type found expected => "invalid type: " ++ found.describe floatText ++ ", expected " ++ expected
  | value found expected => "invalid value: " ++ found.describe floatText ++ ", expected " ++ expected
  | length n expected => s!"invalid length {n}, expected {expected}"
  | missing name => "missing field \x60" ++ name ++ "\x60"
  | duplicate name => "duplicate field \x60" ++ name ++ "\x60"

end PbxAgent.Schema
