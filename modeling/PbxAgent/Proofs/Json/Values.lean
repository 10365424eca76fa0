import PbxAgent.Proofs.Json.Strings
import PbxAgent.Schema.Decoder

/-!
# Values read back

A reader takes a value back as it was written, whatever follows (`Reads`). The statement goes together
from the parts of a value, of which the scalars are here.
-/

namespace PbxAgent.Json

open Schema (Decoder)
open Text.Utf8 (encode encodeChars encodeChars_cons encodeChars_append mem_encode_repr
  length_encode_repr)

variable {α β : Type}

/-- Whether a reader takes a value, as it is written, for something, whatever follows it. -/
def Reads (read : Reader α) (v : Value) (a : α) : Prop :=
  ∀ rest, read (v.bytes ++ rest) = .ok (a, rest)

/-! ## How values begin -/

theorem skipBlank_of_not_isBlank {c : UInt8} (h : isBlank c = false) (r : Bytes) :
    skipBlank (c :: r) = c :: r := by
  rw [skipBlank, List.dropWhile_cons_of_neg (by simp [h])]

theorem value_of_not_isBlank {c : UInt8} (h : isBlank c = false) (r : Bytes) :
    value (c :: r) = .ok (c :: r) := by
  simp only [value, skipBlank_of_not_isBlank h]

/-! ## Scalars -/

theorem bytes_string (s : String) :
    (Value.string s).bytes = quote :: (encodeChars (s.toList.flatMap escapeChar) ++ [quote]) := by
  have hquote : Text.Utf8.encodeChar '"' = [quote] := by decide
  rw [Value.bytes, Value.print, printString, encodeChars_cons, encodeChars_append,
    encodeChars_cons '"' [], hquote]
  rfl

theorem reads_text (s : String) : Reads Decoder.text.json (.string s) s := by
  intro rest
  show text _ = _
  rw [bytes_string, List.cons_append, List.append_assoc, text, value_of_not_isBlank (by decide)]
  exact stringText_escaped s rest

theorem reads_flag (b : Bool) : Reads Decoder.flag.json (.flag b) b := by
  intro rest
  cases b with
  | true => rfl
  | false => rfl

theorem Reads.map {d : Decoder α} {v : Value} {a : α} (h : Reads d.json v a) (f : α → β) :
    Reads (d.map f).json v (f a) := by
  intro rest
  show (d.json (v.bytes ++ rest)).map _ = _
  rw [h rest]
  rfl

/-! ## Kinds -/

/-- The kinds of values that the first byte tells apart. -/
inductive Kind where
  | null
  | flag (b : Bool)
  | natural
  | string
  | list
  | object

/-- The kind of the values that a byte begins, if it begins any. -/
def Kind.ofByte? (c : UInt8) : Option Kind :=
  if c = 0x6E then some .null
  else if c = 0x74 then some (.flag true)
  else if c = 0x66 then some (.flag false)
  else if isDigit c then some .natural
  else if c = quote then some .string
  else if c = 0x5B then some .list
  else if c = 0x7B then some .object
  else none

/-- What begins a value is neither blank nor the end of a list. -/
theorem Kind.of_ofByte? {c : UInt8} {k : Kind} (h : ofByte? c = some k) :
    isBlank c = false ∧ c ≠ 0x5D := by
  constructor
  · rw [Bool.eq_false_iff]
    intro hblank
    simp only [isBlank, Bool.or_eq_true, decide_eq_true_eq] at hblank
    rcases hblank with ((rfl | rfl) | rfl) | rfl <;> cases h
  · rintro rfl
    cases h

theorem Kind.ofByte?_of_isDigit {c : UInt8} (h : isDigit c = true) :
    ofByte? c = some .natural := by
  have hne : ∀ d, isDigit d = false → c ≠ d := by
    rintro d hd rfl
    rw [hd] at h
    cases h
  rw [ofByte?, if_neg (hne _ (by decide)), if_neg (hne _ (by decide)), if_neg (hne _ (by decide)),
    if_pos h]

def Value.kind : Value → Kind
  | .null => .null
  | .flag b => .flag b
  | .natural _ => .natural
  | .string _ => .string
  | .list _ => .list
  | .object _ => .object

theorem bytes_natural (n : Nat) : (Value.natural n).bytes = encode n.repr := by
  rw [encode, Nat.toList_repr]
  rfl

theorem isDigit_of_mem_bytes {n : Nat} {c : UInt8} (h : c ∈ (Value.natural n).bytes) :
    isDigit c = true := by
  rw [bytes_natural] at h
  rw [isDigit, Bytes.digit?, if_pos (mem_encode_repr h)]
  rfl

theorem bytes_natural_ne_nil (n : Nat) : (Value.natural n).bytes ≠ [] := by
  intro h
  rw [bytes_natural, ← List.length_eq_zero_iff, length_encode_repr, ← String.length_toList,
    Nat.toList_repr, List.length_eq_zero_iff] at h
  exact Nat.toDigits_ne_nil h

/-- The first byte of a value tells its kind. -/
theorem exists_head_bytes (v : Value) :
    ∃ c r, v.bytes = c :: r ∧ Kind.ofByte? c = some v.kind := by
  cases v with
  | null => exact ⟨0x6E, ull, by decide, rfl⟩
  | flag b =>
    cases b with
    | true => exact ⟨0x74, rue, by decide, rfl⟩
    | false => exact ⟨0x66, alse, by decide, rfl⟩
  | natural n =>
    obtain ⟨c, r, hbytes⟩ := List.exists_cons_of_ne_nil (bytes_natural_ne_nil n)
    have hc : c ∈ (Value.natural n).bytes := hbytes ▸ List.mem_cons_self
    exact ⟨c, r, hbytes, Kind.ofByte?_of_isDigit (isDigit_of_mem_bytes hc)⟩
  | string s => exact ⟨quote, _, bytes_string s, rfl⟩
  | list vs => exact ⟨0x5B, _, rfl, rfl⟩
  | object ms => exact ⟨0x7B, _, rfl, rfl⟩

/-! ## Parts with commas between them -/

/-- What stands in front of a part. -/
def separator (first : Bool) : Bytes :=
  if first then [] else [0x2C]

/-- Parts with commas between them; one goes in front unless the parts are the first. -/
def separated (first : Bool) : List Bytes → Bytes
  | [] => []
  | p :: ps => separator first ++ (p ++ separated false ps)

/-- The bytes of a member. -/
def memberBytes (m : String × Value) : Bytes :=
  (Value.string m.1).bytes ++ 0x3A :: m.2.bytes

theorem encodeChars_comma (cs : List Char) : encodeChars (',' :: cs) = 0x2C :: encodeChars cs := by
  rw [encodeChars_cons]
  rfl

theorem encodeChars_printElements (vs : List Value) :
    encodeChars (printElements vs) = separated true (vs.map Value.bytes) := by
  have htail : ∀ vs v, encodeChars (printElements (v :: vs))
      = v.bytes ++ separated false (vs.map Value.bytes) := by
    intro vs
    induction vs with
    | nil =>
      intro v
      rw [printElements, List.map_nil, separated, List.append_nil]
      rfl
    | cons w vs ih =>
      intro v
      rw [printElements, encodeChars_append, encodeChars_comma, ih]
      rfl
  cases vs with
  | nil => rfl
  | cons v vs => exact htail vs v

theorem encodeChars_printMembers (ms : List (String × Value)) :
    encodeChars (printMembers ms) = separated true (ms.map memberBytes) := by
  have hmember : ∀ (m : String × Value) cs,
      encodeChars (printString m.1 ++ ':' :: (m.2.print ++ cs)) = memberBytes m ++ encodeChars cs := by
    intro m cs
    rw [encodeChars_append, encodeChars_cons, encodeChars_append]
    show _ = _ ++ _ :: _ ++ _
    rw [List.append_assoc]
    rfl
  have htail : ∀ ms (m : String × Value), encodeChars (printMembers (m :: ms))
      = memberBytes m ++ separated false (ms.map memberBytes) := by
    intro ms
    induction ms with
    | nil =>
      intro m
      have h := hmember m []
      rw [List.append_nil] at h
      exact h
    | cons n ms ih =>
      intro m
      rw [printMembers, hmember, encodeChars_comma, ih]
      rfl
  cases ms with
  | nil => rfl
  | cons m ms => exact htail ms m

theorem bytes_list (vs : List Value) :
    (Value.list vs).bytes = 0x5B :: (separated true (vs.map Value.bytes) ++ [0x5D]) := by
  rw [Value.bytes, Value.print, encodeChars_cons, encodeChars_append, encodeChars_printElements]
  rfl

theorem bytes_object (ms : List (String × Value)) :
    (Value.object ms).bytes = 0x7B :: (separated true (ms.map memberBytes) ++ [0x7D]) := by
  rw [Value.bytes, Value.print, encodeChars_cons, encodeChars_append, encodeChars_printMembers]
  rfl

/-! ## Whole texts -/

/-- A text that holds a value and nothing else is read as that value is. -/
theorem parse_bytes {read : Reader α} {v : Value} {a : α} (h : Reads read v a) :
    parse read v.bytes = .ok a := by
  have hread := h []
  rw [List.append_nil] at hread
  simp only [parse, hread]
  rfl

end PbxAgent.Json
