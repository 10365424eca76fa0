import PbxAgent.Handshake
import PbxAgent.Proofs.Credential.LoginDigest

/-!
# Answers to challenges

When a challenge is answered, and by which digest (`answer_eq_ok`), and that for an identity with all
that a digest is made of it is up to the challenge and the password alone (`answer_of_complete`).
-/

namespace PbxAgent

open Text (Utf8.encode)

namespace Handshake

theorem newChallenge_eq_ok {data : Bytes} {challenge : String} :
    newChallenge data = .ok challenge
      ↔ payload challengeDecoder data = .ok challenge ∧ Utf8.encode challenge ≠ [] := by
  simp only [newChallenge, checked, bind_eq_ok, exists_unit_eq_ok, pure_eq_ok, mapError_eq_ok,
    requireNonempty_eq_ok]
  constructor
  · rintro ⟨challenge', hchallenge, hne, rfl⟩
    exact ⟨hchallenge, hne⟩
  · rintro ⟨hchallenge, hne⟩
    exact ⟨challenge, hchallenge, hne, rfl⟩

/-- A challenge is answered under the login password that is kept at the time. -/
theorem answer_eq_ok {h : Handshake} {data : Bytes} {host : Host} {digest : String} :
    h.answer data host = .ok digest
      ↔ ∃ challenge password, payload challengeDecoder data = .ok challenge
        ∧ h.vault.load h.paths.loginPassword host.files = .ok password
        ∧ Credential.loginDigest h.identity.id h.identity.product h.identity.version challenge
            (Text.Utf8.decodeLossy password) = .ok digest := by
  simp only [answer, loginPassword, checked, bind_eq_ok, mapError_eq_ok, newChallenge_eq_ok]
  constructor
  · rintro ⟨challenge, ⟨hchallenge, -⟩, password, hload, hdigest⟩
    exact ⟨challenge, password, hchallenge, hload, hdigest⟩
  · rintro ⟨challenge, password, hchallenge, hload, hdigest⟩
    obtain ⟨-, -, -, hne, -⟩ := Credential.loginDigest_eq_ok.1 hdigest
    exact ⟨challenge, ⟨hchallenge, hne⟩, password, hload, hdigest⟩

end Handshake

/-! ## Identities with all that a digest is made of -/

/-- Whether an identity has all that goes into a digest. -/
structure Identity.Complete (i : Identity) : Prop where
  id : i.id ≠ ""
  product : i.product ≠ ""
  version : i.version ≠ ""

/-- The digest that answers a challenge for an identity, under a login password. -/
def Identity.digestFor (i : Identity) (challenge : String) (password : Bytes) : String :=
  Credential.hashText (Utf8.encode
    (i.id ++ ":" ++ i.product ++ ":" ++ i.version ++ ":" ++ challenge ++ ":"
      ++ Text.Utf8.decodeLossy password))

namespace Handshake

variable {h : Handshake} {data : Bytes} {host : Host}

/-- For a complete identity, a challenge is answered if it and the password are not empty. -/
theorem answer_of_complete (complete : h.identity.Complete) {digest : String} :
    h.answer data host = .ok digest
      ↔ ∃ challenge password, payload challengeDecoder data = .ok challenge ∧ challenge ≠ ""
        ∧ h.vault.load h.paths.loginPassword host.files = .ok password ∧ password ≠ []
        ∧ h.identity.digestFor challenge password = digest := by
  rw [answer_eq_ok]
  refine exists_congr fun challenge => exists_congr fun password => ?_
  simp only [Credential.loginDigest_eq_ok, Credential.loginText_eq, ne_eq,
    Text.Utf8.encode_eq_nil_iff, Text.Utf8.decodeLossy_eq_empty_iff, complete.id, complete.product,
    complete.version, not_false_eq_true, true_and]
  constructor
  · rintro ⟨hpayload, hload, hchallenge, hpassword, hdigest⟩
    exact ⟨hpayload, hchallenge, hload, hpassword, hdigest⟩
  · rintro ⟨hpayload, hchallenge, hload, hpassword, hdigest⟩
    exact ⟨hpayload, hload, hchallenge, hpassword, hdigest⟩

/-- Of a complete identity, no field is ever found empty. -/
theorem of_answer_eq_validation (complete : h.identity.Complete) {e : ValidationError}
    (herror : h.answer data host = .error (.validation e)) :
    e = .empty "challenge" ∨ e = .empty "password" := by
  rcases bind_eq_error.1 herror with hchallenge | ⟨challenge, -, herror⟩
  · rcases bind_eq_error.1 hchallenge with hpayload | ⟨challenge, -, hchallenge⟩
    · obtain ⟨_, -, hcause⟩ := mapError_eq_error.1 hpayload
      cases hcause
    · rcases bind_eq_error.1 hchallenge with hempty | ⟨_, -, hpure⟩
      · obtain ⟨d, hempty, hcause⟩ := mapError_eq_error.1 hempty
        obtain ⟨-, rfl⟩ := requireNonempty_eq_error.1 hempty
        cases hcause
        exact .inl rfl
      · cases hpure
  · rcases bind_eq_error.1 herror with hload | ⟨password, -, hdigest⟩
    · obtain ⟨_, -, hcause⟩ := mapError_eq_error.1 hload
      cases hcause
    · obtain ⟨d, hdigest, hcause⟩ := mapError_eq_error.1 hdigest
      cases hcause
      exact Credential.of_loginDigest_eq_error (mt Text.Utf8.encode_eq_nil_iff.1 complete.id)
        (mt Text.Utf8.encode_eq_nil_iff.1 complete.product)
        (mt Text.Utf8.encode_eq_nil_iff.1 complete.version) hdigest

end Handshake

end PbxAgent
