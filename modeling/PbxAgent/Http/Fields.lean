import PbxAgent.Bytes

/-!
# Header fields

Fields in the order in which their names first appeared, each name in small letters with all its
values together.
-/

namespace PbxAgent.Http

/-- Names with their values. -/
abbrev Fields := List (Bytes × List Bytes)

namespace Fields

/-- Adds a value behind those that its name has already. -/
def add : Fields → Bytes → Bytes → Fields
  | [], name, value => [(name, [value])]
  | (n, vs) :: r, name, value =>
    if n = name then (n, vs ++ [value]) :: r else (n, vs) :: add r name value

/-- Adds a value under a name in letters of any case. -/
def addNamed (fs : Fields) (name value : Bytes) : Fields :=
  fs.add (name.map Bytes.toLower) value

/-- The values of a name. -/
def values (fs : Fields) (name : Bytes) : List Bytes :=
  ((fs.find? (·.1 = name)).map (·.2)).getD []

/-- One line for every value. -/
def lines (fs : Fields) : List (Bytes × Bytes) :=
  fs.flatMap fun (n, vs) => vs.map fun v => (n, v)

theorem values_add_self (fs : Fields) (name value : Bytes) :
    (fs.add name value).values name = fs.values name ++ [value] := by
  induction fs with
  | nil => simp [add, values]
  | cons f r ih =>
    obtain ⟨n, vs⟩ := f
    by_cases h : n = name
    · simp [add, values, h]
    · simpa [add, values, h] using ih

theorem values_add_ne {name other : Bytes} (fs : Fields) (value : Bytes) (h : other ≠ name) :
    (fs.add name value).values other = fs.values other := by
  induction fs with
  | nil => simp [add, values, Ne.symm h]
  | cons f r ih =>
    obtain ⟨n, vs⟩ := f
    by_cases hn : n = name
    · subst hn; simp [add, values, Ne.symm h]
    · by_cases ho : n = other
      · subst ho; simp [add, values, hn]
      · simpa [add, values, hn, ho] using ih

end Fields

/-! ## Names that decide how a body is framed -/

def contentLengthName : Bytes :=
  [0x63, 0x6F, 0x6E, 0x74, 0x65, 0x6E, 0x74, 0x2D, 0x6C, 0x65, 0x6E, 0x67, 0x74, 0x68]

def contentTypeName : Bytes :=
  [0x63, 0x6F, 0x6E, 0x74, 0x65, 0x6E, 0x74, 0x2D, 0x74, 0x79, 0x70, 0x65]

def transferEncodingName : Bytes :=
  [0x74, 0x72, 0x61, 0x6E, 0x73, 0x66, 0x65, 0x72, 0x2D, 0x65, 0x6E, 0x63, 0x6F, 0x64, 0x69, 0x6E,
    0x67]

end PbxAgent.Http
