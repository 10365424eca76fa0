import PbxAgent.Frame

/-!
# Frames and their bytes

A byte string is a frame if it has the first byte and the length of one, and then it is the bytes of the
frame that is read from it (`Frame.bytes_of_parse`). Whatever the codes in its header, a frame is read
again from its bytes (`Frame.parse_bytes`), so that the two determine each other (`Frame.codec_exact`).
-/

namespace PbxAgent

theorem Bytes.toNat_lt (b : Bytes) : toNat b < Nat.pow 256 b.length := by
  calc toNat b = toNat (ofNat b.length (toNat b)) := by rw [ofNat_toNat]
    _ = toNat b % Nat.pow 256 b.length := toNat_ofNat _ _
    _ < Nat.pow 256 b.length := Nat.mod_lt _ (Nat.pow_pos (by decide))

/-! ## Messages -/

namespace AdminMessage

/-- What is read as an administrative message is its bytes. -/
theorem bytes_of_parse {b : Bytes} {m : AdminMessage} (h : parse b = .ok m) : m.bytes = b := by
  unfold parse at h
  split at h
  next k c₁ c₀ data =>
    split at h
    next hk =>
      cases h
      have hlt : Bytes.toNat [c₁, c₀] < 2 ^ 16 := by simpa using Bytes.toNat_lt [c₁, c₀]
      have hnumeral : Bytes.ofNat 2 (Bytes.toNat [c₁, c₀]) = [c₁, c₀] :=
        Bytes.ofNat_toNat [c₁, c₀]
      rw [bytes, UInt16.toNat_ofNat', Nat.mod_eq_of_lt hlt, hnumeral, hk]
      rfl
    next => cases h
  next => cases h

end AdminMessage

namespace TunnelMessage

/-- What is read as a tunnel message is its bytes. -/
theorem bytes_of_parse {b : Bytes} {m : TunnelMessage} (h : parse b = .ok m) : m.bytes = b := by
  -- The session and the event are numerals of four bytes each.
  have hnumeral : ∀ c₃ c₂ c₁ c₀ : UInt8,
      Bytes.ofNat 4 (UInt32.ofNat (Bytes.toNat [c₃, c₂, c₁, c₀])).toNat = [c₃, c₂, c₁, c₀] := by
    intro c₃ c₂ c₁ c₀
    have hlt : Bytes.toNat [c₃, c₂, c₁, c₀] < 2 ^ 32 := by
      simpa using Bytes.toNat_lt [c₃, c₂, c₁, c₀]
    rw [UInt32.toNat_ofNat', Nat.mod_eq_of_lt hlt]
    exact Bytes.ofNat_toNat [c₃, c₂, c₁, c₀]
  unfold parse at h
  split at h
  next =>
    split at h
    next hk =>
      cases h
      rw [bytes, UInt32.toUInt32_toInt32, hnumeral, hnumeral, hk]
      rfl
    next => cases h
  next => cases h

theorem parse_of_short {b : Bytes} (h : b.length < 9) : parse b = .error .tunnelLength := by
  unfold parse
  split
  next =>
    simp only [List.length_cons] at h
    omega
  next => rfl

theorem exists_parse {r : Bytes} (h : 9 ≤ (kind :: r).length) : ∃ m, parse (kind :: r) = .ok m := by
  match r, h with
  | s₃ :: s₂ :: s₁ :: s₀ :: e₃ :: e₂ :: e₁ :: e₀ :: data, _ =>
    unfold parse
    exact ⟨_, if_pos rfl⟩

end TunnelMessage

/-! ## Frames -/

namespace Frame

variable {b : Bytes} {f : Frame} {e : FrameError}

/-- What is read as a frame is its bytes. -/
theorem bytes_of_parse (h : parse b = .ok f) : f.bytes = b := by
  unfold parse at h
  split at h
  next k c₁ c₀ r =>
    split at h
    next =>
      cases hm : AdminMessage.parse (k :: c₁ :: c₀ :: r) with
      | error e =>
        rw [hm] at h
        cases h
      | ok m =>
        rw [hm] at h
        cases h
        exact AdminMessage.bytes_of_parse hm
    next =>
      split at h
      next =>
        cases hm : TunnelMessage.parse (k :: c₁ :: c₀ :: r) with
        | error e =>
          rw [hm] at h
          cases h
        | ok m =>
          rw [hm] at h
          cases h
          exact TunnelMessage.bytes_of_parse hm
      next => cases h
  next => cases h

theorem parse_adminBytes (m : AdminMessage) : parse m.bytes = .ok (.admin m) := by
  have hparse := m.parse_bytes
  simp only [AdminMessage.bytes, Bytes.ofNat, List.nil_append, List.cons_append] at hparse ⊢
  simp only [parse, if_true, hparse]
  rfl

theorem parse_tunnelBytes (m : TunnelMessage) : parse m.bytes = .ok (.tunnel m) := by
  have hparse := m.parse_bytes
  have hkind : TunnelMessage.kind ≠ AdminMessage.kind := by decide
  simp only [TunnelMessage.bytes, Bytes.ofNat, List.nil_append, List.cons_append] at hparse ⊢
  simp only [parse, if_neg hkind, if_true, hparse]
  rfl

theorem parse_bytes (f : Frame) : parse f.bytes = .ok f := by
  cases f with
  | admin m => exact parse_adminBytes m
  | tunnel m => exact parse_tunnelBytes m

/-- What a byte string is read as depends on its length and its first byte. -/
theorem parse_cases (b : Bytes) :
    b.length < 3 ∧ parse b = .error (.length b.length)
      ∨ 3 ≤ b.length ∧ b.head? = some AdminMessage.kind ∧ (∃ m, parse b = .ok (.admin m))
      ∨ 3 ≤ b.length ∧ b.length < 9 ∧ b.head? = some TunnelMessage.kind
        ∧ parse b = .error .tunnelLength
      ∨ 9 ≤ b.length ∧ b.head? = some TunnelMessage.kind ∧ (∃ m, parse b = .ok (.tunnel m))
      ∨ 3 ≤ b.length ∧ ∃ k, b.head? = some k ∧ k ≠ AdminMessage.kind ∧ k ≠ TunnelMessage.kind
        ∧ parse b = .error (.unknownKind k) := by
  match b with
  | [] | [_] | [_, _] => exact .inl ⟨by simp, rfl⟩
  | k :: c₁ :: c₀ :: r =>
    right
    have hlen : 3 ≤ (k :: c₁ :: c₀ :: r).length := by simp
    by_cases ha : k = AdminMessage.kind
    · subst ha
      exact .inl ⟨hlen, rfl, _, rfl⟩
    · right
      by_cases ht : k = TunnelMessage.kind
      · subst ht
        have hparse : parse (TunnelMessage.kind :: c₁ :: c₀ :: r)
            = (TunnelMessage.parse (TunnelMessage.kind :: c₁ :: c₀ :: r)).map .tunnel := rfl
        by_cases hshort : (TunnelMessage.kind :: c₁ :: c₀ :: r).length < 9
        · refine .inl ⟨hlen, hshort, rfl, ?_⟩
          rw [hparse, TunnelMessage.parse_of_short hshort]
          rfl
        · obtain ⟨m, hm⟩ := TunnelMessage.exists_parse (Nat.not_lt.1 hshort)
          refine .inr (.inl ⟨Nat.not_lt.1 hshort, rfl, m, ?_⟩)
          rw [hparse, hm]
          rfl
      · refine .inr (.inr ⟨hlen, k, rfl, ha, ht, ?_⟩)
        simp only [parse, ha, ht, if_false]

theorem exists_parse_iff : (∃ f, parse b = .ok f) ↔
    3 ≤ b.length ∧ b.head? = some AdminMessage.kind
      ∨ 9 ≤ b.length ∧ b.head? = some TunnelMessage.kind := by
  have hkind : AdminMessage.kind ≠ TunnelMessage.kind := by decide
  rcases parse_cases b with ⟨hlen, hp⟩ | ⟨hlen, hk, m, hp⟩ | ⟨-, hlen, hk, hp⟩
    | ⟨hlen, hk, m, hp⟩ | ⟨hlen, k, hk, ha, ht, hp⟩
  · simp only [hp, reduceCtorEq, exists_false, false_iff]
    omega
  · simp [hp, hlen, hk]
  · simp [hp, hk, hkind.symm, hlen]
  · simp [hp, hk, hlen]
  · simp [hp, hk, ha, ht]

/-- Why a byte string is no frame. -/
theorem parse_eq_error_iff : parse b = .error e ↔
    b.length < 3 ∧ e = .length b.length
      ∨ 3 ≤ b.length ∧ b.length < 9 ∧ b.head? = some TunnelMessage.kind ∧ e = .tunnelLength
      ∨ 3 ≤ b.length ∧ ∃ k, b.head? = some k ∧ k ≠ AdminMessage.kind ∧ k ≠ TunnelMessage.kind
          ∧ e = .unknownKind k := by
  have hkind : AdminMessage.kind ≠ TunnelMessage.kind := by decide
  rcases parse_cases b with ⟨hlen, hp⟩ | ⟨hlen, hk, m, hp⟩ | ⟨hlen, hshort, hk, hp⟩
    | ⟨hlen, hk, m, hp⟩ | ⟨hlen, k, hk, ha, ht, hp⟩
  · simp [hp, hlen, Nat.not_le.2 hlen, eq_comm]
  · simp [hp, hlen, hk, hkind, Nat.not_lt.2 hlen]
  · simp [hp, hk, hlen, hshort, Nat.not_lt.2 hlen, eq_comm]
  · simp [hp, hk, Nat.not_lt.2 hlen]
    omega
  · simp [hp, hk, ha, ht, hlen, Nat.not_lt.2 hlen, eq_comm]

/-- **Frames and their byte strings determine each other.** A byte string is read as a frame if it begins
with 1 and has 3 bytes or more, or begins with 2 and has 9 or more, and it is then the bytes of what is
read. One of fewer than 3 bytes fails for its length; one of 3 to 8 that begins with 2 fails as a tunnel
message; any other fails for its first byte, which is reported. Every message of either kind, whatever its
command, session, event and data, is read from its bytes, by the reader of its kind as by that of frames. -/
theorem codec_exact :
    (∀ b : Bytes,
      ((∃ f, parse b = .ok f) ↔ 3 ≤ b.length ∧ b.head? = some 1 ∨ 9 ≤ b.length ∧ b.head? = some 2)
      ∧ (∀ f, parse b = .ok f → f.bytes = b)
      ∧ ∀ e, parse b = .error e ↔
          b.length < 3 ∧ e = .length b.length
            ∨ 3 ≤ b.length ∧ b.length < 9 ∧ b.head? = some 2 ∧ e = .tunnelLength
            ∨ 3 ≤ b.length ∧ ∃ k, b.head? = some k ∧ k ≠ 1 ∧ k ≠ 2 ∧ e = .unknownKind k)
    ∧ (∀ m : AdminMessage, parse m.bytes = .ok (.admin m) ∧ AdminMessage.parse m.bytes = .ok m)
    ∧ ∀ m : TunnelMessage, parse m.bytes = .ok (.tunnel m) ∧ TunnelMessage.parse m.bytes = .ok m :=
  ⟨fun _ => ⟨exists_parse_iff, fun _ => bytes_of_parse, fun _ => parse_eq_error_iff⟩,
    fun m => ⟨parse_bytes (.admin m), m.parse_bytes⟩,
    fun m => ⟨parse_bytes (.tunnel m), m.parse_bytes⟩⟩

end Frame

end PbxAgent
