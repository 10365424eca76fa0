import PbxAgent.Handshake
import PbxAgent.Proofs.Credential.AdminPassword

/-!
# Passwords that commands bring

When a command brings a password, and which: the login password as it is (`newLoginPassword_eq_ok`),
the administrative one deciphered under seed and login password (`newAdminPassword_eq_ok`).
-/

namespace PbxAgent

open Text (Utf8.encode)

namespace Handshake

theorem newLoginPassword_eq_ok {data password : Bytes} :
    newLoginPassword data = .ok password
      ↔ ∃ text, payload passwordDecoder data = .ok text
        ∧ (Utf8.encode text).length = Credential.loginPasswordLength
        ∧ Utf8.encode text = password := by
  simp only [newLoginPassword, checked, bind_eq_ok, exists_unit_eq_ok, pure_eq_ok, mapError_eq_ok,
    requireLength_eq_ok]

theorem newRotation_eq_ok {data : Bytes} {r : Rotation} :
    newRotation data = .ok r
      ↔ payload rotationDecoder data = .ok r
        ∧ (Utf8.encode r.seed).length = Credential.seedLength ∧ Utf8.encode r.pwd ≠ [] := by
  simp only [newRotation, checked, bind_eq_ok, exists_unit_eq_ok, pure_eq_ok, mapError_eq_ok,
    requireNonempty_eq_ok, requireLength_eq_ok]
  constructor
  · rintro ⟨r', hr, ⟨⟩, ⟨_, hseed, hpwd⟩, rfl⟩
    exact ⟨hr, hseed, requireNonempty_eq_ok.1 hpwd⟩
  · rintro ⟨hr, hseed, hpwd⟩
    refine ⟨r, hr, (), ⟨?_, hseed, requireNonempty_eq_ok.2 hpwd⟩, rfl⟩
    intro hnil
    simp [hnil, Credential.seedLength] at hseed

/-- The administrative password is deciphered under the login password that is kept at the time. -/
theorem newAdminPassword_eq_ok {h : Handshake} {data password : Bytes} {host : Host} :
    h.newAdminPassword data host = .ok password
      ↔ ∃ r login, payload rotationDecoder data = .ok r
        ∧ (Utf8.encode r.seed).length = Credential.seedLength ∧ Utf8.encode r.pwd ≠ []
        ∧ h.vault.load h.paths.loginPassword host.files = .ok login
        ∧ login.length = Credential.loginPasswordLength
        ∧ Crypto.Rc4.crypt (Credential.adminPasswordKey login r.seed) (Utf8.encode r.pwd)
          = password := by
  simp only [newAdminPassword, loginPassword, checked, bind_eq_ok, mapError_eq_ok,
    newRotation_eq_ok, Credential.decryptAdminPassword_eq_ok]
  constructor
  · rintro ⟨r, ⟨hr, hseed, hpwd⟩, login, hload, hlen, -, -, h⟩
    exact ⟨r, login, hr, hseed, hpwd, hload, hlen, h⟩
  · rintro ⟨r, login, hr, hseed, hpwd, hload, hlen, h⟩
    exact ⟨r, ⟨hr, hseed, hpwd⟩, login, hload, hlen, hseed, hpwd, h⟩

end Handshake

end PbxAgent
