import PbxAgent.Bytes

/-!
# Hexadecimal text

Two small digits per byte. The text determines the bytes (`encode_injective`, `decode?_encode`).
-/

namespace PbxAgent.Text.Hex

/-- The small hexadecimal digit of a number below 16. -/
def digit (n : Nat) : Char :=
  if n < 10 then Char.ofNat (0x30 + n) else Char.ofNat (0x57 + n)

/-- The number that a hexadecimal digit of either case stands for. -/
def value (c : Char) : Nat :=
  if c.toNat < 0x40 then c.toNat - 0x30
  else if c.toNat < 0x60 then c.toNat - 0x37
  else c.toNat - 0x57

theorem value_digit {n : Nat} (h : n < 16) : value (digit n) = n := by
  have : ∀ m : Fin 16, value (digit m) = m := by decide
  exact this ⟨n, h⟩

/-- The two digits of every byte, in order. -/
def digits : Bytes → List Char
  | [] => []
  | b :: r => digit (b.toNat / 16) :: digit (b.toNat % 16) :: digits r

@[simp] theorem length_digits (b : Bytes) : (digits b).length = 2 * b.length := by
  induction b with
  | nil => rfl
  | cons c r ih => simp [digits, ih]; omega

theorem digits_injective {a b : Bytes} (h : digits a = digits b) : a = b := by
  induction a generalizing b with
  | nil => cases b <;> simp_all [digits]
  | cons c r ih =>
    cases b with
    | nil => simp [digits] at h
    | cons d s =>
      simp only [digits, List.cons.injEq] at h
      obtain ⟨h₁, h₂, h₃⟩ := h
      have hc := c.toNat_lt
      have hd := d.toNat_lt
      have e₁ := congrArg value h₁
      have e₂ := congrArg value h₂
      rw [value_digit (by omega), value_digit (by omega)] at e₁ e₂
      rw [ih h₃, UInt8.toNat_inj.1 (show c.toNat = d.toNat by omega)]

/-- Lower-case hexadecimal text. -/
def encode (b : Bytes) : String :=
  String.ofList (digits b)

theorem encode_injective {a b : Bytes} (h : encode a = encode b) : a = b :=
  digits_injective (by simpa [encode] using congrArg String.toList h)

/-! ## Reading -/

/-- Digits of either case. -/
def isDigit (c : Char) : Bool :=
  c.isDigit || ('a' ≤ c && c ≤ 'f') || ('A' ≤ c && c ≤ 'F')

/-- The bytes whose digits are given. -/
def ofDigits? : List Char → Option Bytes
  | [] => some []
  | a :: b :: r =>
    if isDigit a && isDigit b then
      (ofDigits? r).map (UInt8.ofNat (value a * 16 + value b) :: ·)
    else none
  | [_] => none

/-- The bytes that hexadecimal text stands for. -/
def decode? (s : String) : Option Bytes :=
  ofDigits? s.toList

theorem isDigit_digit {n : Nat} (h : n < 16) : isDigit (digit n) = true := by
  have : ∀ m : Fin 16, isDigit (digit m) = true := by decide
  exact this ⟨n, h⟩

theorem ofDigits?_digits (b : Bytes) : ofDigits? (digits b) = some b := by
  induction b with
  | nil => rfl
  | cons c r ih =>
    have hc := c.toNat_lt
    have e : UInt8.ofNat (c.toNat / 16 * 16 + c.toNat % 16) = c := by
      rw [Nat.div_add_mod']; exact UInt8.ofNat_toNat
    simp [digits, ofDigits?, ih, isDigit_digit (show c.toNat / 16 < 16 by omega),
      isDigit_digit (show c.toNat % 16 < 16 by omega), value_digit (show c.toNat / 16 < 16 by omega),
      value_digit (show c.toNat % 16 < 16 by omega), e]

theorem decode?_encode (b : Bytes) : decode? (encode b) = some b := by
  simp [decode?, encode, ofDigits?_digits]

end PbxAgent.Text.Hex
