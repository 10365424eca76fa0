import PbxAgent.Credential.LoginDigest
import PbxAgent.Proofs.Fallible
import PbxAgent.Proofs.Text.Utf8

/-!
# Login digests

A digest is text of 64 small hexadecimal digits (`length_of_loginDigest`, `mem_of_loginDigest`), so that it
is never taken for none. For one device it stands for one challenge and one password, or else two texts
with the same hash are at hand (`loginDigest_binding`).
-/

namespace PbxAgent

open Text (Utf8.encode)

/-! ## Digits -/

namespace Text.Hex

/-- The digits that bytes are written with. -/
def alphabet : List Char :=
  "0123456789abcdef".toList

theorem digit_mem_alphabet {n : Nat} (h : n < 16) : digit n ∈ alphabet := by
  have : ∀ m : Fin 16, digit m ∈ alphabet := by decide
  exact this ⟨n, h⟩

theorem mem_alphabet_of_mem_digits {b : Bytes} {c : Char} (h : c ∈ digits b) : c ∈ alphabet := by
  induction b with
  | nil => cases h
  | cons x r ih =>
    have hx := x.toNat_lt
    rw [digits, List.mem_cons, List.mem_cons] at h
    rcases h with rfl | rfl | h
    · exact digit_mem_alphabet (by omega)
    · exact digit_mem_alphabet (by omega)
    · exact ih h

end Text.Hex

namespace Credential

/-! ## Digests -/

theorem length_hashText (b : Bytes) : (hashText b).length = 64 := by
  rw [hashText, Text.Hex.encode, String.length_ofList, Text.Hex.length_digits,
    Crypto.Sha256.length_hash]

theorem mem_of_mem_hashText {b : Bytes} {c : Char} (h : c ∈ (hashText b).toList) :
    c ∈ Text.Hex.alphabet := by
  rw [hashText, Text.Hex.encode, String.toList_ofList] at h
  exact Text.Hex.mem_alphabet_of_mem_digits h

variable {id product version challenge password digest : String}

/-- The text that is hashed, as one text. -/
theorem loginText_eq (id product version challenge password : String) :
    loginText id product version challenge password
      = Utf8.encode (id ++ ":" ++ product ++ ":" ++ version ++ ":" ++ challenge ++ ":" ++ password) := by
  have hcolon : Utf8.encode ":" = [0x3A] := by decide
  simp [loginText, Text.Utf8.encode_append, hcolon]

theorem loginDigest_eq_ok :
    loginDigest id product version challenge password = .ok digest
      ↔ Utf8.encode id ≠ [] ∧ Utf8.encode product ≠ [] ∧ Utf8.encode version ≠ []
        ∧ Utf8.encode challenge ≠ [] ∧ Utf8.encode password ≠ []
        ∧ hashText (loginText id product version challenge password) = digest := by
  simp only [loginDigest, bind_eq_ok, exists_unit_eq_ok, pure_eq_ok, requireNonempty_eq_ok]

/-- Of fields of which the first three are not empty, only the others are ever reported. -/
theorem of_loginDigest_eq_error {e : ValidationError} (hid : Utf8.encode id ≠ [])
    (hproduct : Utf8.encode product ≠ []) (hversion : Utf8.encode version ≠ [])
    (h : loginDigest id product version challenge password = .error e) :
    e = .empty "challenge" ∨ e = .empty "password" := by
  simp only [loginDigest, bind_eq_error, requireNonempty_eq_error, exists_unit_eq_ok, hid, hproduct,
    hversion, false_and, false_or] at h
  obtain ⟨-, -, -, ⟨-, he⟩ | ⟨-, ⟨-, he⟩ | ⟨-, he⟩⟩⟩ := h
  · exact .inl he.symm
  · exact .inr he.symm
  · cases he

theorem length_of_loginDigest
    (h : loginDigest id product version challenge password = .ok digest) : digest.length = 64 := by
  obtain ⟨-, -, -, -, -, rfl⟩ := loginDigest_eq_ok.1 h
  exact length_hashText _

theorem mem_of_loginDigest (h : loginDigest id product version challenge password = .ok digest)
    {c : Char} (hc : c ∈ digest.toList) : c ∈ Text.Hex.alphabet := by
  obtain ⟨-, -, -, -, -, rfl⟩ := loginDigest_eq_ok.1 h
  exact mem_of_mem_hashText hc

theorem ne_empty_of_loginDigest
    (h : loginDigest id product version challenge password = .ok digest) : digest ≠ "" := by
  rintro rfl
  exact absurd (length_of_loginDigest h) (by decide)

/-- What a digest is made of for one device, up to its challenge. -/
def deviceText (id product version : String) : Bytes :=
  Utf8.encode (id ++ ":" ++ product ++ ":" ++ version ++ ":")

theorem loginText_eq_append (id product version challenge password : String) :
    loginText id product version challenge password
      = deviceText id product version ++ (Utf8.encode challenge ++ 0x3A :: Utf8.encode password) := by
  have hcolon : Utf8.encode ":" = [0x3A] := by decide
  simp [loginText_eq, deviceText, Text.Utf8.encode_append, hcolon]

/-- A challenge may have colons in it, but where the password begins is told by its length. -/
theorem loginText_injective {challenge' password' : String}
    (hlength : (Utf8.encode password).length = (Utf8.encode password').length)
    (h : loginText id product version challenge password
      = loginText id product version challenge' password') :
    challenge = challenge' ∧ password = password' := by
  rw [loginText_eq_append, loginText_eq_append, List.append_right_inj] at h
  obtain ⟨hchallenge, hpassword⟩ := List.append_inj' h (by simpa using hlength)
  exact ⟨Text.Utf8.encode_injective hchallenge,
    Text.Utf8.encode_injective (List.cons.inj hpassword).2⟩

/-! ## Binding -/

/-- Whether two texts differ and have the same hash. -/
def Collide (a b : Bytes) : Prop :=
  a ≠ b ∧ Crypto.Sha256.hash a = Crypto.Sha256.hash b

theorem eq_or_collide {a b : Bytes} (h : hashText a = hashText b) : a = b ∨ Collide a b := by
  by_cases heq : a = b
  · exact .inl heq
  · exact .inr ⟨heq, Text.Hex.encode_injective h⟩

/-- **A digest stands for one challenge and one password.** Take any device with an id, a product and a
version, none of them empty. Any challenge that is not empty and any password of 32 bytes give a digest: 64
small hexadecimal digits, which stand for the 32 bytes of the hash of the five fields with colons between
them. Where two challenges and two such passwords give the same digest, they are the same, or else the two
texts that were hashed differ and have the same hash. -/
theorem loginDigest_binding {id product version : String} (hid : id ≠ "") (hproduct : product ≠ "")
    (hversion : version ≠ "") :
    let text (challenge password : String) : Bytes :=
      Utf8.encode (id ++ ":" ++ product ++ ":" ++ version ++ ":" ++ challenge ++ ":" ++ password)
    (∀ challenge password, challenge ≠ "" → (Utf8.encode password).length = 32 →
        ∃ digest, loginDigest id product version challenge password = .ok digest)
      ∧ (∀ challenge password digest,
          loginDigest id product version challenge password = .ok digest →
          digest.length = 64
            ∧ (∀ c ∈ digest.toList, c ∈ "0123456789abcdef".toList)
            ∧ Text.Hex.decode? digest = some (Crypto.Sha256.hash (text challenge password))
            ∧ (Crypto.Sha256.hash (text challenge password)).length = 32)
      ∧ ∀ challenge₁ challenge₂ password₁ password₂ digest,
          (Utf8.encode password₁).length = 32 → (Utf8.encode password₂).length = 32 →
          loginDigest id product version challenge₁ password₁ = .ok digest →
          loginDigest id product version challenge₂ password₂ = .ok digest →
          (challenge₁ = challenge₂ ∧ password₁ = password₂)
            ∨ Collide (text challenge₁ password₁) (text challenge₂ password₂) := by
  intro text
  refine ⟨?_, ?_, ?_⟩
  · intro challenge password hchallenge hpassword
    have hne : Utf8.encode password ≠ [] := by
      rintro hnil
      rw [hnil] at hpassword
      cases hpassword
    refine ⟨_, loginDigest_eq_ok.2 ⟨?_, ?_, ?_, ?_, hne, rfl⟩⟩
    · exact mt Text.Utf8.encode_eq_nil_iff.1 hid
    · exact mt Text.Utf8.encode_eq_nil_iff.1 hproduct
    · exact mt Text.Utf8.encode_eq_nil_iff.1 hversion
    · exact mt Text.Utf8.encode_eq_nil_iff.1 hchallenge
  · intro challenge password digest h
    refine ⟨length_of_loginDigest h, fun c => mem_of_loginDigest h, ?_, Crypto.Sha256.length_hash _⟩
    obtain ⟨-, -, -, -, -, rfl⟩ := loginDigest_eq_ok.1 h
    rw [loginText_eq]
    exact Text.Hex.decode?_encode _
  · intro challenge₁ challenge₂ password₁ password₂ digest hlength₁ hlength₂ h₁ h₂
    obtain ⟨-, -, -, -, -, hhash₁⟩ := loginDigest_eq_ok.1 h₁
    obtain ⟨-, -, -, -, -, hhash₂⟩ := loginDigest_eq_ok.1 h₂
    rcases eq_or_collide (hhash₁.trans hhash₂.symm) with htext | hcollide
    · exact .inl (loginText_injective (hlength₁.trans hlength₂.symm) htext)
    · rw [loginText_eq, loginText_eq] at hcollide
      exact .inr hcollide

/-- A digest that is known, for a device whose version has a blank and brackets in it. -/
theorem loginDigest_binding_known :
    let version := "13r2 dvl [13.4250/131286/1300]"
    let password := "2jjH!u3ucXscEzHq8X!l83BX3!U8TPwA"
    let digest := "13cc86b3f0691e2ce1a626a9963a5aefeefcb78f7e5b23a8ede10e8204247c97"
    let text := Utf8.encode
      "f19033480af9:IP232:13r2 dvl [13.4250/131286/1300]:1446931255:2jjH!u3ucXscEzHq8X!l83BX3!U8TPwA"
    "f19033480af9" ≠ "" ∧ "IP232" ≠ "" ∧ version ≠ "" ∧ "1446931255" ≠ ""
      ∧ (Utf8.encode password).length = 32
      ∧ loginDigest "f19033480af9" "IP232" version "1446931255" password = .ok digest
      ∧ Text.Hex.decode? digest = some (Crypto.Sha256.hash text)
      ∧ (("1446931255" = "1446931255" ∧ password = password) ∨ Collide text text) := by
  intro version password digest text
  have hid : "f19033480af9" ≠ "" := by decide
  have hproduct : "IP232" ≠ "" := by decide
  have hversion : version ≠ "" := by decide
  have hchallenge : "1446931255" ≠ "" := by decide
  have hlength : (Utf8.encode password).length = 32 := by decide
  have hhash : hashText (loginText "f19033480af9" "IP232" "13r2 dvl [13.4250/131286/1300]" "1446931255"
      "2jjH!u3ucXscEzHq8X!l83BX3!U8TPwA")
        = "13cc86b3f0691e2ce1a626a9963a5aefeefcb78f7e5b23a8ede10e8204247c97" := by
    decide +kernel
  obtain ⟨given, told, bound⟩ := loginDigest_binding hid hproduct hversion
  obtain ⟨digest', hdigest⟩ := given "1446931255" password hchallenge hlength
  obtain ⟨-, -, -, -, -, heq⟩ := loginDigest_eq_ok.1 hdigest
  obtain rfl : digest' = digest := heq.symm.trans hhash
  obtain ⟨-, -, hdecode, -⟩ := told _ _ _ hdigest
  exact ⟨hid, hproduct, hversion, hchallenge, hlength, hdigest, hdecode,
    bound _ _ _ _ _ hlength hlength hdigest hdigest⟩

end Credential

end PbxAgent
