import PbxAgent.Json.Reader
import PbxAgent.Toml.Value

/-!
# Decoders for both formats

A record that may come as JSON text or out of a TOML document is described once.
-/

namespace PbxAgent.Schema

/-- How a value is read in either format. -/
structure Decoder (α : Type) where
  json : Json.Reader α
  toml : Toml.Reader α

namespace Decoder

variable {α β σ : Type}

def map (f : α → β) (d : Decoder α) : Decoder β where
  json b := (d.json b).map fun (a, rest) => (f a, rest)
  toml v := (d.toml v).map f

def text : Decoder String := ⟨Json.text, Toml.text⟩

def flag : Decoder Bool := ⟨Json.flag, Toml.flag⟩

def list (d : Decoder α) : Decoder (List α) := ⟨Json.list d.json, Toml.list d.toml⟩

/-- The member as one of JSON text. -/
def memberJson (m : Member Decoder σ) : Json.Member σ := { m with read := m.read.json }

/-- The member as one of a TOML document. -/
def memberToml (m : Member Decoder σ) : Toml.Member σ := { m with read := m.read.toml }

def record (title : String) (start : σ) (members : List (Member Decoder σ)) : Decoder σ where
  json := Json.record title start (members.map memberJson)
  toml := Toml.record title start (members.map memberToml)

end Decoder

end PbxAgent.Schema
