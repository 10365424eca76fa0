import PbxAgent.Schema.Mismatch

/-!
# Members of records

A record is described by its members: the names that a document may use for each, whether it must be
there, and how its value is read and put in. The way of reading is a parameter, so that one
description can serve several formats.
-/

namespace PbxAgent.Schema

/-- A member of a record of type `σ`, read in the way `ρ`. -/
structure Member (ρ : Type → Type) (σ : Type) where
  name : String
  aliases : List String := []
  required : Bool := false
  read : ρ (σ → σ)

variable {ρ : Type → Type} {σ : Type}

/-- Whether a key names the member. -/
def Member.answersTo (m : Member ρ σ) (key : String) : Bool :=
  m.name == key || m.aliases.contains key

/-- The first required member whose name is not among those seen. -/
def firstMissing (members : List (Member ρ σ)) (seen : List String) : Option String :=
  (members.find? fun m => m.required && !seen.contains m.name).map (·.name)

/-- The words for a record whose members must fill a list. -/
def elementsOf (title : String) (count : Nat) : String :=
  s!"struct {title} with {count} element" ++ (if count = 1 then "" else "s")

/-- What has been read of a record: its value so far and the names of the members that occurred. -/
structure Draft (σ : Type) where
  value : σ
  seen : List String := []

/-- The draft with another member in it. -/
def Draft.put (d : Draft σ) (name : String) (update : σ → σ) : Draft σ :=
  ⟨update d.value, name :: d.seen⟩

end PbxAgent.Schema
