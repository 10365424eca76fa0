import PbxAgent.Json.Text
import PbxAgent.Json.Value
import PbxAgent.Proofs.Text.Utf8

/-!
# Strings read back

A string is read as it was written (`stringText_escaped`), whatever characters it has: the escape of
a character stands for the bytes of the character (`stringBytes_escapeChar`), and these make up the
string.
-/

namespace PbxAgent.Json

open Text.Utf8 (encodeChar encodeChars encodeChars_cons encodeChars_append toNat_of_mem_encodeChar)

/-! ## Bytes that stand for themselves -/

/-- A byte that stands for itself in a string. -/
def IsPlain (b : UInt8) : Prop :=
  b ≠ quote ∧ ¬ b < 0x20 ∧ b ≠ backslash

theorem stringBytes_plain {bs : Bytes} (h : ∀ b ∈ bs, IsPlain b) (done r : Bytes) :
    stringBytes done (bs ++ r) = stringBytes (bs.reverse ++ done) r := by
  induction bs generalizing done with
  | nil => rfl
  | cons b bs ih =>
    obtain ⟨hquote, hcontrol, hslash⟩ := h b List.mem_cons_self
    rw [List.cons_append, stringBytes.eq_def]
    dsimp only
    rw [if_neg hquote, if_neg hcontrol, if_pos hslash, ih fun x hx => h x (List.mem_cons_of_mem b hx),
      List.reverse_cons, List.append_assoc, List.singleton_append]

/-- A character that needs no escape has plain bytes. -/
theorem isPlain_of_mem_encodeChar {c : Char} (hquote : c ≠ '"') (hslash : c ≠ '\\')
    (hcontrol : ¬ c.toNat < 0x20) {b : UInt8} (hb : b ∈ encodeChar c) : IsPlain b := by
  have hq : c.toNat ≠ 0x22 := fun h => hquote (Char.toNat_inj.1 h)
  have hs : c.toNat ≠ 0x5C := fun h => hslash (Char.toNat_inj.1 h)
  have hbyte := toNat_of_mem_encodeChar hb
  simp only [IsPlain, quote, backslash, ne_eq, ← UInt8.toNat_inj, UInt8.lt_iff_toNat_lt,
    UInt8.reduceToNat]
  omega

/-! ## Escapes -/

theorem stringBytes_escape {e b : UInt8} (hu : e ≠ 0x75) (he : simpleEscape? e = some b)
    (done r : Bytes) : stringBytes done (backslash :: e :: r) = stringBytes (b :: done) r := by
  rw [stringBytes.eq_def]
  dsimp only
  rw [if_neg (by decide), if_neg (by decide), if_neg (by decide), if_pos hu, he]

/-- The two digits of the escape of a control, and what they stand for. -/
theorem hexUnit?_control (n : Fin 0x20) :
    encodeChars ['\\', 'u', '0', '0', Text.Hex.digit (n / 16), Text.Hex.digit (n % 16)]
        = [backslash, 0x75, 0x30, 0x30, UInt8.ofNat (Text.Hex.digit (n / 16)).toNat,
          UInt8.ofNat (Text.Hex.digit (n % 16)).toNat]
      ∧ hexUnit? 0x30 0x30 (UInt8.ofNat (Text.Hex.digit (n / 16)).toNat)
          (UInt8.ofNat (Text.Hex.digit (n % 16)).toNat) = some n.val := by
  revert n
  decide

theorem stringBytes_control {n : Nat} (hn : n < 0x20) (done r : Bytes) :
    stringBytes done (encodeChars
        ['\\', 'u', '0', '0', Text.Hex.digit (n / 16), Text.Hex.digit (n % 16)] ++ r)
      = stringBytes (pushChar (Char.ofNat n) done) r := by
  obtain ⟨hbytes, hunit⟩ := hexUnit?_control ⟨n, hn⟩
  have htrail : isTrailSurrogate n = false := by simp [isTrailSurrogate]; omega
  have hlead : isLeadSurrogate n = false := by simp [isLeadSurrogate]; omega
  dsimp only at hbytes hunit
  rw [hbytes, List.cons_append, List.cons_append, stringBytes.eq_def]
  simp only [List.cons_append, List.nil_append, hunit, htrail, hlead]
  rfl

theorem stringBytes_escapeChar (c : Char) (done r : Bytes) :
    stringBytes done (encodeChars (escapeChar c) ++ r)
      = stringBytes ((encodeChar c).reverse ++ done) r := by
  unfold escapeChar
  split
  · exact stringBytes_escape (by decide) (by decide) done r
  · exact stringBytes_escape (by decide) (by decide) done r
  · exact stringBytes_escape (by decide) (by decide) done r
  · exact stringBytes_escape (by decide) (by decide) done r
  · exact stringBytes_escape (by decide) (by decide) done r
  · exact stringBytes_escape (by decide) (by decide) done r
  · exact stringBytes_escape (by decide) (by decide) done r
  · split
    · rw [stringBytes_control ‹_›, Char.ofNat_toNat]
      rfl
    · rw [encodeChars, List.flatMap_singleton]
      exact stringBytes_plain (fun b hb => isPlain_of_mem_encodeChar ‹_› ‹_› ‹_› hb) done r

/-! ## Strings -/

theorem stringBytes_escaped (cs : List Char) (done r : Bytes) :
    stringBytes done (encodeChars (cs.flatMap escapeChar) ++ quote :: r)
      = .ok (done.reverse ++ encodeChars cs, r) := by
  induction cs generalizing done with
  | nil =>
    rw [stringBytes.eq_def]
    simp only [List.flatMap_nil, encodeChars, List.nil_append, List.append_nil, if_true]
  | cons c cs ih =>
    rw [List.flatMap_cons, encodeChars_append, List.append_assoc, stringBytes_escapeChar, ih,
      List.reverse_append, List.reverse_reverse, List.append_assoc, encodeChars_cons]

theorem stringText_escaped (s : String) (r : Bytes) :
    stringText (encodeChars (s.toList.flatMap escapeChar) ++ quote :: r) = .ok (s, r) := by
  have hdecode : Text.Utf8.decode? (encodeChars s.toList) = some s := Text.Utf8.decode?_encode s
  rw [stringText, stringBytes_escaped, List.reverse_nil, List.nil_append]
  simp only [bind, Except.bind, hdecode]

end PbxAgent.Json
