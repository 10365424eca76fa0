/-!
# Byte strings

Byte strings are lists, so that they can be taken apart and reasoned about by recursion. Numbers
travel as big-endian numerals of a fixed width.
-/

namespace PbxAgent

/-- A string of bytes. -/
abbrev Bytes := List UInt8

namespace Bytes

/-! ## Big-endian numerals -/

/-- The numeral of `n` in `width` bytes, most significant first; what does not fit is cut off. -/
def ofNat : Nat → Nat → Bytes
  | 0, _ => []
  | width + 1, n => ofNat width (n / 256) ++ [UInt8.ofNat n]

/-- The number that a big-endian numeral stands for. -/
def toNat (b : Bytes) : Nat :=
  b.foldl (fun n d => n * 256 + d.toNat) 0

@[simp] theorem length_ofNat (width n : Nat) : (ofNat width n).length = width := by
  induction width generalizing n with
  | zero => rfl
  | succ w ih => simp [ofNat, ih]

@[simp] theorem toNat_nil : toNat [] = 0 := rfl

theorem toNat_append_singleton (b : Bytes) (d : UInt8) :
    toNat (b ++ [d]) = toNat b * 256 + d.toNat := by
  simp [toNat]

theorem toNat_ofNat (width n : Nat) : toNat (ofNat width n) = n % Nat.pow 256 width := by
  induction width generalizing n with
  | zero => simp [ofNat, Nat.mod_one]
  | succ w ih =>
    show _ = n % 256 ^ (w + 1)
    rw [ofNat, toNat_append_singleton, ih, Nat.pow_eq, Nat.pow_succ', Nat.mod_mul]
    simp
    omega

theorem toNat_ofNat_of_lt {width n : Nat} (h : n < Nat.pow 256 width) :
    toNat (ofNat width n) = n := by
  rw [toNat_ofNat, Nat.mod_eq_of_lt h]

theorem ofNat_toNat (b : Bytes) : ofNat b.length (toNat b) = b := by
  induction h : b.length generalizing b with
  | zero => simp_all [ofNat]
  | succ w ih =>
    obtain ⟨c, d, rfl⟩ : ∃ c d, b = c ++ [d] := by
      have hb : b ≠ [] := by rintro rfl; simp at h
      exact ⟨b.dropLast, b.getLast hb, (List.dropLast_concat_getLast hb).symm⟩
    have hc : c.length = w := by simpa using h
    have hd : d.toNat < 256 := d.toNat_lt
    have hq : (toNat c * 256 + d.toNat) / 256 = toNat c := by omega
    have hr : UInt8.ofNat (toNat c * 256 + d.toNat) = d :=
      UInt8.toNat_inj.1 (by simp)
    rw [ofNat, toNat_append_singleton, hq, hr, ih c hc]

/-! ## Text in ASCII -/

/-- The small letter for a capital ASCII letter; any other byte as it is. -/
def toLower (c : UInt8) : UInt8 :=
  if 0x41 ≤ c ∧ c ≤ 0x5A then c + 0x20 else c

/-- Equality that takes capital and small ASCII letters as the same. -/
def sameIgnoringCase (a b : Bytes) : Bool :=
  a.map toLower == b.map toLower

/-- The decimal digit that a byte stands for. -/
def digit? (c : UInt8) : Option Nat :=
  if 0x30 ≤ c ∧ c ≤ 0x39 then some (c.toNat - 0x30) else none

/-- The hexadecimal digit, of either case, that a byte stands for. -/
def hexDigit? (c : UInt8) : Option Nat :=
  if 0x30 ≤ c ∧ c ≤ 0x39 then some (c.toNat - 0x30)
  else if 0x41 ≤ c ∧ c ≤ 0x46 then some (c.toNat - 0x37)
  else if 0x61 ≤ c ∧ c ≤ 0x66 then some (c.toNat - 0x57)
  else none

end Bytes

end PbxAgent
