import PbxAgent.Credential.AdminPassword
import PbxAgent.Proofs.Fallible

/-!
# Administrative passwords deciphered

Deciphering goes through just if nothing is amiss with the fields, and else reports the first fault in them
(`decryptAdminPassword_eq`); the key that they make is then of the length that the cipher is made for.
Deciphering twice gives the message back, and what comes later in a message does not bear on what comes
before (`decryptAdminPassword_exact`).
-/

namespace PbxAgent.Credential

open Text (Utf8.encode)

variable {login pwd password : Bytes} {seed : String}

/-! ## The key -/

theorem length_adminPasswordKey (hlogin : login.length = loginPasswordLength)
    (hseed : (Utf8.encode seed).length = seedLength) :
    (adminPasswordKey login seed).length = cipherKeyLength := by
  rw [adminPasswordKey, List.length_append, List.length_cons, hlogin, hseed]
  rfl

theorem cipher_of_length {key : Bytes} (h : key.length = cipherKeyLength) :
    cipher key = .ok (Crypto.Rc4.schedule key) := by
  rw [cipher, Crypto.Rc4.schedule?, if_pos h]

/-! ## Checks in a row -/

section
variable {ε α : Type} {field : String} {value : Bytes} {expected : Nat}

/-- A value, unless there is a fault: then the first is reported. Each comes with whether it is there. -/
def unlessFault (faults : List (Bool × ε)) (a : α) : Except ε α :=
  match faults.find? (·.1) with
  | some fault => .error fault.2
  | none => .ok a

theorem unlessFault_cons {P : Prop} [Decidable P] {e : ε} {faults : List (Bool × ε)} {a : α}
    {x : Except ε α} (h : ¬ P → x = unlessFault faults a) :
    (if P then .error e else x) = unlessFault ((decide P, e) :: faults) a := by
  by_cases hp : P
  · simp [unlessFault, hp]
  · simp [unlessFault, hp, h hp]

theorem unlessFault_eq_ok {faults : List (Bool × ε)} {a b : α} :
    unlessFault faults a = .ok b ↔ (∀ fault ∈ faults, fault.1 = false) ∧ a = b := by
  unfold unlessFault
  split
  next fault hfind =>
    have hthere : fault.1 = true := List.find?_some hfind
    simp only [reduceCtorEq, false_iff, not_and]
    intro hnone
    rw [hnone fault (List.mem_of_find?_eq_some hfind)] at hthere
    cases hthere
  next hfind =>
    simp only [List.find?_eq_none, Bool.not_eq_true] at hfind
    rw [Except.ok.injEq, and_iff_right hfind]

theorem unlessFault_eq_error {faults : List (Bool × ε)} {a : α} {e : ε} :
    unlessFault faults a = .error e ↔ ∃ fault, faults.find? (·.1) = some fault ∧ fault.2 = e := by
  unfold unlessFault
  split
  next fault hfind => simp [hfind]
  next hfind => simp [hfind]

theorem requireNonempty_bind (next : Unit → Except ValidationError α) :
    (requireNonempty field value >>= next) = if value = [] then .error (.empty field) else next () := by
  unfold requireNonempty
  split
  · rfl
  · rfl

theorem requireLength_bind (next : Unit → Except ValidationError α) :
    (requireLength field value expected >>= next)
      = if value.length ≠ expected then .error (.length field value.length expected) else next () := by
  unfold requireLength
  rw [ite_not]
  split
  · rfl
  · rfl

end

/-! ## What can be amiss -/

/-- What can be amiss with the fields, in the order in which it is looked for. -/
def faults (login : Bytes) (seed : String) (pwd : Bytes) : List (Bool × ValidationError) := [
  (login = [], .empty "sysclientPassword"),
  (login.length ≠ 32, .length "sysclientPassword" login.length 32),
  (Utf8.encode seed = [], .empty "seed"),
  ((Utf8.encode seed).length ≠ 16, .length "seed" (Utf8.encode seed).length 16),
  (pwd = [], .empty "pwd")]

/-- Without a fault the message is deciphered under a key that the cipher takes. -/
theorem decryptAdminPassword_eq (login : Bytes) (seed : String) (pwd : Bytes) :
    decryptAdminPassword login seed pwd
      = unlessFault (faults login seed pwd) (Crypto.Rc4.crypt (adminPasswordKey login seed) pwd) := by
  simp only [decryptAdminPassword, requireNonempty_bind, requireLength_bind]
  refine unlessFault_cons fun _ => unlessFault_cons fun hlogin => unlessFault_cons fun _ =>
    unlessFault_cons fun hseed => unlessFault_cons fun _ => ?_
  rw [cipher_of_length (length_adminPasswordKey (Decidable.of_not_not hlogin)
    (Decidable.of_not_not hseed))]
  rfl

theorem decryptAdminPassword_eq_ok :
    decryptAdminPassword login seed pwd = .ok password
      ↔ login.length = loginPasswordLength ∧ (Utf8.encode seed).length = seedLength ∧ pwd ≠ []
        ∧ Crypto.Rc4.crypt (adminPasswordKey login seed) pwd = password := by
  rw [decryptAdminPassword_eq, unlessFault_eq_ok]
  simp only [faults, List.forall_mem_cons, decide_eq_false_iff_not, Decidable.not_not,
    List.not_mem_nil, false_implies, implies_true, and_true]
  constructor
  · rintro ⟨⟨-, hlogin, -, hseed, hpwd⟩, h⟩
    exact ⟨hlogin, hseed, hpwd, h⟩
  · rintro ⟨hlogin, hseed, hpwd, h⟩
    refine ⟨⟨?_, hlogin, ?_, hseed, hpwd⟩, h⟩
    · rintro rfl
      cases hlogin
    · intro hnil
      rw [hnil] at hseed
      cases hseed

/-! ## Deciphering -/

/-- **An administrative password is deciphered exactly if nothing is amiss.** Deciphering gives a password
just if the login password has 32 bytes, the seed 16, and there is a message. The password is the message
under RC4, keyed with the seed, a colon and the login password; it is as long, deciphers to the message
again, and begins with what any beginning of the message deciphers to. Otherwise the first fault is
reported, and never one of the key. -/
theorem decryptAdminPassword_exact (login : Bytes) (seed : String) (pwd : Bytes) :
    ((∃ password, decryptAdminPassword login seed pwd = .ok password)
        ↔ login.length = 32 ∧ (Utf8.encode seed).length = 16 ∧ pwd ≠ [])
      ∧ (∀ password, decryptAdminPassword login seed pwd = .ok password →
          password = Crypto.Rc4.crypt (Utf8.encode seed ++ 0x3A :: login) pwd
            ∧ password.length = pwd.length
            ∧ decryptAdminPassword login seed password = .ok pwd
            ∧ ∀ n, 0 < n → decryptAdminPassword login seed (pwd.take n) = .ok (password.take n))
      ∧ (∀ e, decryptAdminPassword login seed pwd = .error e
          ↔ ∃ fault, (faults login seed pwd).find? (·.1) = some fault ∧ fault.2 = e)
      ∧ ∀ actual expected,
          decryptAdminPassword login seed pwd ≠ .error (.length "key" actual expected) := by
  have herror : ∀ e, decryptAdminPassword login seed pwd = .error e
      ↔ ∃ fault, (faults login seed pwd).find? (·.1) = some fault ∧ fault.2 = e := by
    intro e
    rw [decryptAdminPassword_eq, unlessFault_eq_error]
  refine ⟨?_, ?_, herror, ?_⟩
  · constructor
    · rintro ⟨password, h⟩
      obtain ⟨hlogin, hseed, hpwd, -⟩ := decryptAdminPassword_eq_ok.1 h
      exact ⟨hlogin, hseed, hpwd⟩
    · rintro ⟨hlogin, hseed, hpwd⟩
      exact ⟨_, decryptAdminPassword_eq_ok.2 ⟨hlogin, hseed, hpwd, rfl⟩⟩
  · intro password h
    obtain ⟨hlogin, hseed, hpwd, rfl⟩ := decryptAdminPassword_eq_ok.1 h
    have hlength := Crypto.Rc4.length_crypt (adminPasswordKey login seed) pwd
    refine ⟨rfl, hlength, ?_, ?_⟩
    · refine decryptAdminPassword_eq_ok.2 ⟨hlogin, hseed, ?_, Crypto.Rc4.crypt_crypt _ _⟩
      rwa [← List.length_pos_iff, hlength, List.length_pos_iff]
    · intro n hn
      refine decryptAdminPassword_eq_ok.2 ⟨hlogin, hseed, ?_, Crypto.Rc4.crypt_take _ _ _⟩
      simp only [ne_eq, List.take_eq_nil_iff, not_or]
      exact ⟨Nat.ne_of_gt hn, hpwd⟩
  · intro actual expected h
    obtain ⟨fault, hfind, hfault⟩ := (herror _).1 h
    have hmem := List.mem_of_find?_eq_some hfind
    simp only [faults, List.mem_cons, List.not_mem_nil, or_false] at hmem
    rcases hmem with rfl | rfl | rfl | rfl | rfl <;> simp at hfault

/-- A cipher text that is known, with its key. -/
theorem crypt_secret :
    Crypto.Rc4.crypt (adminPasswordKey (Utf8.encode "12345678123456781234567812345678")
        "1234567812345678") [0x2F, 0x36, 0x62, 0x9F, 0xD3, 0xB4, 0xAD, 0x69, 0xC5, 0xAF, 0x22, 0x8E]
      = Utf8.encode "admin-secret" := by
  decide +kernel

/-- A message and what it deciphers to: each gives the other, and its first bytes give the first bytes. -/
theorem decryptAdminPassword_exact_secret :
    let login := Utf8.encode "12345678123456781234567812345678"
    let seed := "1234567812345678"
    let pwd : Bytes := [0x2F, 0x36, 0x62, 0x9F, 0xD3, 0xB4, 0xAD, 0x69, 0xC5, 0xAF, 0x22, 0x8E]
    decryptAdminPassword login seed pwd = .ok (Utf8.encode "admin-secret")
      ∧ decryptAdminPassword login seed (Utf8.encode "admin-secret") = .ok pwd
      ∧ 0 < 5 ∧ decryptAdminPassword login seed (pwd.take 5) = .ok (Utf8.encode "admin") := by
  intro login seed pwd
  have hdecrypt : decryptAdminPassword login seed pwd = .ok (Utf8.encode "admin-secret") :=
    decryptAdminPassword_eq_ok.2 ⟨by decide, by decide, by decide, crypt_secret⟩
  obtain ⟨-, deciphered, -⟩ := decryptAdminPassword_exact login seed pwd
  obtain ⟨-, -, hagain, htake⟩ := deciphered _ hdecrypt
  exact ⟨hdecrypt, hagain, by decide, htake 5 (by decide)⟩

end PbxAgent.Credential
