import PbxAgent.Vault

/-!
# Sealing and opening

What a vault seals under any nonce it opens again (`openSealed_of_seal?`), and it opens nothing else
(`openSealed_eq_ok_iff`); whether it seals at all is a matter of length (`seal?_eq_none_iff`). Together
these make up the format of what is stored (`sealed_format`).
-/

namespace PbxAgent

namespace Crypto.Gcm

open Aes256 (Key)

variable {key : Key} {nonce : Nonce} {m b : Bytes}

theorem encrypt?_eq_none_iff : encrypt? key nonce m = none ↔ maxLength < m.length := by
  unfold encrypt?
  split <;> simp <;> omega

/-- Decryption gives back what was encrypted under the same key and nonce. -/
theorem decrypt?_of_encrypt? (h : encrypt? key nonce m = some b) : decrypt? key nonce b = some m := by
  unfold encrypt? at h
  split at h
  · rename_i short
    rw [Option.some.injEq] at h
    subst h
    have hlen : ∀ t : Aes256.Block, (crypt (Aes256.roundKeys key) nonce m ++ t.toList).length - 16
        = (crypt (Aes256.roundKeys key) nonce m).length := by simp
    unfold decrypt?
    simp only [hlen, List.take_left, List.drop_left, if_true, crypt_crypt]
    rw [if_neg]
    simp only [length_crypt, List.length_append, Vector.length_toList]
    omega
  · cases h

/-- What decrypts is the encryption of what it decrypts to. -/
theorem encrypt?_of_decrypt? (h : decrypt? key nonce b = some m) :
    encrypt? key nonce m = some b := by
  unfold decrypt? at h
  split at h
  · cases h
  rename_i hlen
  dsimp only at h
  split at h
  · rename_i htag
    rw [Option.some.injEq] at h
    subst h
    have hshort : (crypt (Aes256.roundKeys key) nonce (b.take (b.length - 16))).length
        ≤ maxLength := by
      rw [length_crypt, List.length_take]
      omega
    unfold encrypt?
    rw [if_pos hshort]
    dsimp only
    rw [crypt_crypt, ← htag, List.take_append_drop]
  · cases h

theorem decrypt?_eq_some_iff : decrypt? key nonce b = some m ↔ encrypt? key nonce m = some b :=
  ⟨encrypt?_of_decrypt?, decrypt?_of_encrypt?⟩

theorem length_of_encrypt? (h : encrypt? key nonce m = some b) : b.length = m.length + 16 := by
  unfold encrypt? at h
  split at h
  · cases h
    simp
  · cases h

end Crypto.Gcm

namespace Vault

variable {v : Vault} {nonce : Crypto.Gcm.Nonce} {p sealed : Bytes}

theorem seal?_eq_none_iff : v.seal? nonce p = none ↔ Crypto.Gcm.maxLength < p.length := by
  rw [seal?, Option.map_eq_none_iff, Crypto.Gcm.encrypt?_eq_none_iff]

theorem seal?_of_le (h : p.length ≤ Crypto.Gcm.maxLength) (nonce : Crypto.Gcm.Nonce) :
    ∃ sealed, v.seal? nonce p = some sealed := by
  cases hs : v.seal? nonce p with
  | none => exact absurd (seal?_eq_none_iff.1 hs) (Nat.not_lt.2 h)
  | some sealed => exact ⟨sealed, rfl⟩

theorem length_le_of_seal? (h : v.seal? nonce p = some sealed) :
    p.length ≤ Crypto.Gcm.maxLength := by
  refine Nat.not_lt.1 ?_
  intro long
  rw [seal?_eq_none_iff.2 long] at h
  cases h

/-- What one vault seals every vault seals, under any nonce. -/
theorem seal?_of_seal? (h : v.seal? nonce p = some sealed) (v' : Vault) (nonce' : Crypto.Gcm.Nonce) :
    ∃ sealed', v'.seal? nonce' p = some sealed' :=
  seal?_of_le (length_le_of_seal? h) nonce'

/-! ## Nonces in front -/

theorem nonceOf_append (nonce : Crypto.Gcm.Nonce) (b : Bytes)
    (h : nonceLength ≤ (nonce.toList ++ b).length) : nonceOf (nonce.toList ++ b) h = nonce := by
  have htake : (nonce.toList ++ b).take nonceLength = nonce.toList :=
    List.take_left' (by simp [nonceLength])
  apply Vector.toList_inj.1
  simp [nonceOf, htake]

theorem toList_nonceOf {s : Bytes} (h : nonceLength ≤ s.length) :
    (nonceOf s h).toList = s.take nonceLength := by
  simp [nonceOf]

theorem seal?_eq_some_iff :
    v.seal? nonce p = some sealed
      ↔ ∃ b, Crypto.Gcm.encrypt? v.key nonce p = some b ∧ sealed = nonce.toList ++ b := by
  rw [seal?, Option.map_eq_some_iff]
  exact exists_congr fun b => and_congr_right fun _ => eq_comm

theorem length_of_seal? (h : v.seal? nonce p = some sealed) :
    sealed.length = p.length + 28 := by
  obtain ⟨b, hb, rfl⟩ := seal?_eq_some_iff.1 h
  rw [List.length_append, Crypto.Gcm.length_of_encrypt? hb, Vector.length_toList]
  omega

/-- A byte string is sealed under its own first bytes if what is behind them is encrypted so. -/
theorem seal?_nonceOf {s : Bytes} (h : nonceLength ≤ s.length) :
    v.seal? (nonceOf s h) p = some s
      ↔ Crypto.Gcm.encrypt? v.key (nonceOf s h) p = some (s.drop nonceLength) := by
  have hs : s = (nonceOf s h).toList ++ s.drop nonceLength := by
    rw [toList_nonceOf, List.take_append_drop]
  rw [seal?_eq_some_iff]
  constructor
  · rintro ⟨b, hb, heq⟩
    rw [hb, List.append_cancel_left (heq.symm.trans hs)]
  · intro hb
    exact ⟨_, hb, hs⟩

/-! ## Opening -/

/-- A vault opens just what it has sealed under the nonce in front. -/
theorem openSealed_eq_ok_iff {s : Bytes} {origin : String} :
    v.openSealed s origin = .ok p
      ↔ ∃ h : nonceLength ≤ s.length, v.seal? (nonceOf s h) p = some s := by
  by_cases h : nonceLength ≤ s.length
  · simp only [h, exists_true_left, seal?_nonceOf, ← Crypto.Gcm.decrypt?_eq_some_iff]
    rw [openSealed, dif_pos h]
    cases Crypto.Gcm.decrypt? v.key (nonceOf s h) (s.drop nonceLength) with
    | none => simp
    | some q => simp
  · simp [openSealed, h]

/-- The nonce goes in front, so that opening finds it. -/
theorem openSealed_of_seal? (h : v.seal? nonce p = some sealed) (origin : String) :
    v.openSealed sealed origin = .ok p := by
  have hlen : nonceLength ≤ sealed.length := by
    rw [length_of_seal? h]
    exact Nat.le_add_left_of_le (by decide)
  obtain ⟨b, -, rfl⟩ := seal?_eq_some_iff.1 h
  refine openSealed_eq_ok_iff.2 ⟨hlen, ?_⟩
  rw [nonceOf_append, h]

theorem openSealed_eq_truncated_iff {s : Bytes} {origin : String} :
    v.openSealed s origin = .error (.truncated origin) ↔ s.length < nonceLength := by
  by_cases h : nonceLength ≤ s.length
  · simp only [openSealed, h, dif_pos, Nat.not_lt.2 h, iff_false]
    split <;> simp
  · simp [openSealed, h, Nat.lt_of_not_le h]

theorem openSealed_eq_decrypt_iff {s : Bytes} {origin : String} :
    v.openSealed s origin = .error (.decrypt origin)
      ↔ nonceLength ≤ s.length ∧ ∀ p, v.openSealed s origin ≠ .ok p := by
  by_cases h : nonceLength ≤ s.length
  · simp only [openSealed, h, dif_pos, true_and]
    split <;> simp
  · simp [openSealed, h]

/-- Sealed credentials that the vault takes for the same. -/
def OpensAlike (v : Vault) (a b : Bytes) : Prop :=
  ∀ origin, v.openSealed a origin = v.openSealed b origin

theorem OpensAlike.refl (v : Vault) (a : Bytes) : v.OpensAlike a a :=
  fun _ => rfl

/-- What is sealed under two nonces opens alike. -/
theorem opensAlike_of_seal? {nonce' : Crypto.Gcm.Nonce} {sealed' : Bytes}
    (h : v.seal? nonce p = some sealed) (h' : v.seal? nonce' p = some sealed') :
    v.OpensAlike sealed sealed' := by
  intro origin
  rw [openSealed_of_seal? h, openSealed_of_seal? h']

/-- **The format of a sealed credential.** Whatever secret the vault is of, a message is sealed unless it
is too long: under any nonce it becomes the nonce and 16 bytes more than the message has, and opens to
itself. Conversely a byte string opens to a message just if it is what the message is sealed to under
the nonce in front, which no string of fewer than 28 bytes is. Without room for a nonce it is truncated,
and in every other case it cannot be decrypted. -/
theorem sealed_format (v : Vault) :
    (∀ nonce p, match v.seal? nonce p with
      | some sealed => p.length ≤ Crypto.Gcm.maxLength
        ∧ (∃ ciphertext, sealed = nonce.toList ++ ciphertext) ∧ sealed.length = p.length + 28
        ∧ ∀ origin, v.openSealed sealed origin = .ok p
      | none => Crypto.Gcm.maxLength < p.length)
    ∧ ∀ s origin,
      (∀ p, v.openSealed s origin = .ok p
        ↔ ∃ h : nonceLength ≤ s.length, v.seal? (nonceOf s h) p = some s)
      ∧ (v.openSealed s origin = .error (.truncated origin) ↔ s.length < nonceLength)
      ∧ (v.openSealed s origin = .error (.decrypt origin)
        ↔ nonceLength ≤ s.length ∧ ∀ p, v.openSealed s origin ≠ .ok p)
      ∧ ∀ p, v.openSealed s origin = .ok p → s.length = p.length + 28 := by
  constructor
  · intro nonce p
    cases h : v.seal? nonce p with
    | none => exact seal?_eq_none_iff.1 h
    | some sealed =>
      obtain ⟨b, -, hb⟩ := seal?_eq_some_iff.1 h
      exact ⟨length_le_of_seal? h, ⟨b, hb⟩, length_of_seal? h, openSealed_of_seal? h⟩
  · intro s origin
    refine ⟨fun p => openSealed_eq_ok_iff, openSealed_eq_truncated_iff, openSealed_eq_decrypt_iff, ?_⟩
    intro p h
    obtain ⟨_, hs⟩ := openSealed_eq_ok_iff.1 h
    exact length_of_seal? hs

end Vault

end PbxAgent
