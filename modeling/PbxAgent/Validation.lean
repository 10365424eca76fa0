import PbxAgent.Bytes

/-!
# Checked fields

The two checks that a field of a message goes through before anything else is done with it.
-/

namespace PbxAgent

/-- The check that a field failed. -/
inductive ValidationError where
  | empty (field : String)
  | length (field : String) (actual expected : Nat)
  deriving DecidableEq, Repr

def ValidationError.message : ValidationError → String
  | empty field => field ++ " cant be empty"
  | length field actual expected =>
    s!"{field} has a invalid length of '{actual}'. should have a length of {expected}"

/-- Refuses an empty field. -/
def requireNonempty (field : String) (value : Bytes) : Except ValidationError Unit :=
  if value = [] then .error (.empty field) else .ok ()

/-- Refuses a field of any length but the expected one. -/
def requireLength (field : String) (value : Bytes) (expected : Nat) : Except ValidationError Unit :=
  if value.length = expected then .ok () else .error (.length field value.length expected)

theorem requireNonempty_eq_ok {field : String} {value : Bytes} :
    requireNonempty field value = .ok () ↔ value ≠ [] := by
  simp [requireNonempty]

theorem requireNonempty_eq_error {field : String} {value : Bytes} {e : ValidationError} :
    requireNonempty field value = .error e ↔ value = [] ∧ .empty field = e := by
  by_cases h : value = []
  · simp [requireNonempty, h]
  · simp [requireNonempty, h]

theorem requireLength_eq_ok {field : String} {value : Bytes} {expected : Nat} :
    requireLength field value expected = .ok () ↔ value.length = expected := by
  simp [requireLength]

end PbxAgent
