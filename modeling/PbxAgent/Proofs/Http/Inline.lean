import PbxAgent.Http.Request
import PbxAgent.Proofs.Text.Utf8

/-!
# Bytes within a line

What may be written into a line of a head without ending it, numbers in decimal among it
(`isInline_decimalBytes`).
-/

namespace PbxAgent.Http

open Text.Utf8 (encode mem_encode_repr)

/-- Whether bytes stay within a line. -/
def IsInline (b : Bytes) : Prop :=
  0x0D ∉ b ∧ 0x0A ∉ b

instance (b : Bytes) : Decidable (IsInline b) :=
  inferInstanceAs (Decidable (_ ∧ _))

theorem IsInline.append {a b : Bytes} (ha : IsInline a) (hb : IsInline b) : IsInline (a ++ b) := by
  obtain ⟨har, haf⟩ := ha
  obtain ⟨hbr, hbf⟩ := hb
  constructor
  · rw [List.mem_append, not_or]
    exact ⟨har, hbr⟩
  · rw [List.mem_append, not_or]
    exact ⟨haf, hbf⟩

theorem isInline_of_all {isByte : UInt8 → Bool} (hr : isByte 0x0D = false) (hf : isByte 0x0A = false)
    {b : Bytes} (h : b.all isByte = true) : IsInline b := by
  rw [List.all_eq_true] at h
  constructor
  · intro hmem
    rw [h _ hmem] at hr
    cases hr
  · intro hmem
    rw [h _ hmem] at hf
    cases hf

/-! ## Numbers -/

theorem encode_repr (n : Nat) : encode n.repr = decimalBytes n := by
  rw [encode, Nat.toList_repr, decimalBytes]

theorem mem_decimalBytes {n : Nat} {d : UInt8} (h : d ∈ decimalBytes n) : 0x30 ≤ d ∧ d ≤ 0x39 := by
  rw [← encode_repr] at h
  exact mem_encode_repr h

theorem isInline_decimalBytes (n : Nat) : IsInline (decimalBytes n) := by
  constructor
  · intro hmem
    exact absurd (mem_decimalBytes hmem).1 (by decide)
  · intro hmem
    exact absurd (mem_decimalBytes hmem).1 (by decide)

end PbxAgent.Http
