import PbxAgent.Proofs.Agent.Reset
import PbxAgent.Proofs.Handshake.Challenges
import PbxAgent.Proofs.Handshake.Payloads
import PbxAgent.Proofs.Identity.ReadBack
import PbxAgent.Proofs.Vault.Sealing

/-!
# Challenges and the identity that answers them

A valid configuration has all that a digest is made of (`Config.complete_of_validate`), and whatever an
agent of it has gone through, it has that identity and that vault. So a challenge is answered for what is
in the challenge and in the vault, and for nothing else (`challenge_answered`).
-/

namespace PbxAgent

open Text.Utf8 (encode)

/-! ## Valid configurations -/

theorem ne_empty_of_requireSetting {setting value : String}
    (h : requireSetting setting value = .ok ()) : value ≠ "" := by
  rintro rfl
  cases h

/-- The identity in a valid configuration is complete. -/
theorem Config.complete_of_validate {c : Config} (h : c.validate = .ok ()) :
    c.identity.Complete := by
  simp only [validate, bind_eq_ok, exists_unit_eq_ok] at h
  obtain ⟨id, product, version, -⟩ := h
  exact ⟨ne_empty_of_requireSetting id, ne_empty_of_requireSetting product,
    ne_empty_of_requireSetting version⟩

/-! ## Identities up to the digest -/

namespace Identity

variable {i j : Identity}

theorem complete_withoutDigest : i.withoutDigest.Complete ↔ i.Complete :=
  ⟨fun h => ⟨h.id, h.product, h.version⟩, fun h => ⟨h.id, h.product, h.version⟩⟩

theorem Complete.congr (complete : i.Complete) (h : i.withoutDigest = j.withoutDigest) :
    j.Complete := by
  rw [← complete_withoutDigest, ← h]
  exact complete_withoutDigest.2 complete

/-- The digest in an identity does not go into another. -/
theorem digestFor_congr (h : i.withoutDigest = j.withoutDigest) (challenge : String)
    (password : Bytes) : i.digestFor challenge password = j.digestFor challenge password := by
  show i.withoutDigest.digestFor challenge password = j.withoutDigest.digestFor challenge password
  rw [h]

/-- Identities that are the same without a digest are so with any other. -/
theorem digest_congr (h : i.withoutDigest = j.withoutDigest) (digest : String) :
    ({ i with digest := digest } : Identity) = { j with digest := digest } := by
  show ({ i.withoutDigest with digest := digest } : Identity) = { j.withoutDigest with digest := digest }
  rw [h]

end Identity

/-! ## What an agent keeps of its configuration -/

/-- An agent of a configuration, by what nothing changes. -/
structure Agent.IsOf (a : Agent) (c : Config) : Prop where
  vault : a.handshake.vault = .ofSecret (encode c.vault.secret)
  paths : a.handshake.paths = c.vault.paths
  identity : a.handshake.identity.withoutDigest = c.identity.withoutDigest

theorem Agent.isOf_through (c : Config) (history : List (Host × Site.Input)) :
    ((ofConfig c).through history).IsOf c := by
  have hreset : ((ofConfig c).through history).reset = ofConfig c :=
    ((ofConfig c).reset_through history).trans (reset_ofConfig c)
  exact {
    vault := congrArg (fun a : Agent => a.handshake.vault) hreset
    paths := congrArg (fun a : Agent => a.handshake.paths) hreset
    identity := congrArg (fun a : Agent => a.handshake.identity) hreset }

/-! ## Answers -/

namespace Site

section
variable {s : Site} {handler : Handler} {data : Bytes}

theorem step_challenge (s : Site) (handler : Handler) (data : Bytes) :
    (s.step (.frame handler (AdminMessage.of .receiveChallenge data).bytes)).1
      = (s.agent.handshake.answer data s.host).map fun digest =>
          some (s.agent.handshake.authenticated digest).presentation.bytes := by
  rw [step_frame_of_admin (Frame.parse_adminBytes _),
    Handshake.handle_of_challenge (AdminCommand.ofCode?_code .receiveChallenge),
    Handshake.receiveChallenge]
  cases h : s.agent.handshake.answer data s.host with
  | error e =>
    simp only [AdminMessage.of, h]
    rfl
  | ok digest =>
    simp only [AdminMessage.of, h]
    rfl

/-- A reply to a challenge is the identity with the digest that answers it. -/
theorem step_challenge_eq_ok {reply : Bytes} :
    (s.step (.frame handler (AdminMessage.of .receiveChallenge data).bytes)).1 = .ok (some reply)
      ↔ ∃ digest, s.agent.handshake.answer data s.host = .ok digest
        ∧ (s.agent.handshake.authenticated digest).presentation.bytes = reply := by
  rw [step_challenge]
  cases s.agent.handshake.answer data s.host with
  | error e => simp [Except.map]
  | ok digest => simp [Except.map]

theorem step_challenge_eq_error {e : AgentError} :
    (s.step (.frame handler (AdminMessage.of .receiveChallenge data).bytes)).1 = .error e
      ↔ s.agent.handshake.answer data s.host = .error e := by
  rw [step_challenge]
  cases s.agent.handshake.answer data s.host with
  | error e => simp [Except.map]
  | ok digest => simp [Except.map]

end

end Site

namespace Agent.IsOf

variable {a : Agent} {c : Config} (isOf : a.IsOf c) (complete : c.identity.Complete)
include isOf complete

theorem complete_identity : a.handshake.identity.Complete :=
  complete.congr isOf.identity.symm

/-- What an agent of a configuration replies to a challenge, by what is configured. -/
theorem reply_iff {host : Host} {handler : Handler} {data reply : Bytes} :
    (Site.step ⟨a, host⟩ (.frame handler (AdminMessage.of .receiveChallenge data).bytes)).1
        = .ok (some reply)
      ↔ ∃ challenge password, Handshake.payload Handshake.challengeDecoder data = .ok challenge
        ∧ challenge ≠ ""
        ∧ (Vault.ofSecret (encode c.vault.secret)).load c.vault.loginPasswordFile host.files
          = .ok password
        ∧ password ≠ []
        ∧ (AdminMessage.of .sendIdentify
            { c.identity with digest := c.identity.digestFor challenge password }.bytes).bytes
          = reply := by
  have hload : a.handshake.vault.load a.handshake.paths.loginPassword host.files
      = (Vault.ofSecret (encode c.vault.secret)).load c.vault.loginPasswordFile host.files := by
    rw [isOf.vault, isOf.paths]
    rfl
  -- What is presented is the identity of the agent, with the digest put in.
  have hpresented : ∀ digest, (a.handshake.authenticated digest).presentation
      = .of .sendIdentify { c.identity with digest := digest }.bytes := by
    intro digest
    rw [← Identity.digest_congr isOf.identity digest]
    rfl
  simp only [Site.step_challenge_eq_ok, hpresented, hload,
    Handshake.answer_of_complete (isOf.complete_identity complete),
    Identity.digestFor_congr isOf.identity]
  constructor
  · rintro ⟨_, ⟨challenge, password, hpayload, hchallenge, hpassword, hne, rfl⟩, hreply⟩
    exact ⟨challenge, password, hpayload, hchallenge, hpassword, hne, hreply⟩
  · rintro ⟨challenge, password, hpayload, hchallenge, hpassword, hne, hreply⟩
    exact ⟨_, ⟨challenge, password, hpayload, hchallenge, hpassword, hne, rfl⟩, hreply⟩

end Agent.IsOf

namespace Site

/-- **A challenge is answered by what it holds.** Take any configuration that is valid under its
environment, and an agent of it, whatever it has gone through and whatever is in the files. A challenge is
answered if it is not empty and the login password loads and is not empty either, and only then. The answer
is the configured identity, read again from the bytes that are sent, with a digest: 64 small hexadecimal
digits, which stand for the hash of its three fields, the challenge and the password with colons between
them. No field of the identity is ever found empty. -/
theorem challenge_answered (c : Config) (e : Environment) (valid : (c.override e).validate = .ok ())
    (history : List (Host × Input)) (host : Host) (handler : Handler) (data : Bytes) :
    let config := c.override e
    let vault := Vault.ofSecret (encode config.vault.secret)
    let now : Site := ⟨(Agent.ofConfig config).through history, host⟩
    let outcome := (now.step (.frame handler (AdminMessage.of .receiveChallenge data).bytes)).1
    ((∃ reply, outcome = .ok (some reply))
        ↔ ∃ challenge password, Handshake.payload Handshake.challengeDecoder data = .ok challenge
          ∧ challenge ≠ ""
          ∧ vault.load config.vault.loginPasswordFile host.files = .ok password ∧ password ≠ [])
      ∧ (∀ reply challenge password, outcome = .ok (some reply) →
          Handshake.payload Handshake.challengeDecoder data = .ok challenge →
          vault.load config.vault.loginPasswordFile host.files = .ok password →
          ∃ json digest, Frame.parse reply = .ok (.admin (.of .sendIdentify json))
            ∧ Identity.parse json = .ok { config.identity with digest := digest }
            ∧ digest.length = 64
            ∧ (∀ c ∈ digest.toList, c ∈ "0123456789abcdef".toList)
            ∧ Text.Hex.decode? digest = some (Crypto.Sha256.hash (encode
                (config.identity.id ++ ":" ++ config.identity.product ++ ":"
                  ++ config.identity.version ++ ":" ++ challenge ++ ":"
                  ++ Text.Utf8.decodeLossy password))))
      ∧ ∀ field ∈ ["id", "product", "version"],
          outcome ≠ .error (.validation (.empty field)) := by
  intro config vault now outcome
  have isOf : now.agent.IsOf config := Agent.isOf_through config history
  have complete : config.identity.Complete := Config.complete_of_validate valid
  have hreply : ∀ reply, outcome = .ok (some reply) ↔ _ := fun reply => isOf.reply_iff complete
  refine ⟨?_, ?_, ?_⟩
  · constructor
    · rintro ⟨reply, h⟩
      obtain ⟨challenge, password, hpayload, hchallenge, hload, hne, -⟩ := (hreply reply).1 h
      exact ⟨challenge, password, hpayload, hchallenge, hload, hne⟩
    · rintro ⟨challenge, password, hpayload, hchallenge, hload, hne⟩
      exact ⟨_, (hreply _).2 ⟨challenge, password, hpayload, hchallenge, hload, hne, rfl⟩⟩
  · intro reply challenge password h hpayload hload
    obtain ⟨challenge', password', hpayload', -, hload', -, rfl⟩ := (hreply reply).1 h
    obtain rfl := Except.ok.inj (hpayload.symm.trans hpayload')
    obtain rfl := Except.ok.inj (hload.symm.trans hload')
    exact ⟨_, _, Frame.parse_adminBytes _, Identity.parse_bytes _, Credential.length_hashText _,
      fun c => Credential.mem_of_mem_hashText, Text.Hex.decode?_encode _⟩
  · intro field hfield h
    have hempty := Handshake.of_answer_eq_validation (isOf.complete_identity complete)
      (step_challenge_eq_error.1 h)
    simp only [ValidationError.empty.injEq] at hempty
    rcases hempty with rfl | rfl
    · exact absurd hfield (by decide)
    · exact absurd hfield (by decide)

/-- With a password in the vault, an agent that nothing has been said to answers a challenge, and its
digest is read off the answer. -/
theorem challenge_answered_atOnce :
    let config : Config := {
      identity := { id := "device", product := "pbx", version := "1" }
      vault := { loginPasswordFile := "login", adminPasswordFile := "admin" } }
    let data := (Json.Value.object [("challenge", .string "nonce")]).bytes
    config.validate = .ok ()
      ∧ ∃ host, ∀ handler, ∃ reply json digest,
        (step ⟨.ofConfig config, host⟩
            (.frame handler (AdminMessage.of .receiveChallenge data).bytes)).1 = .ok (some reply)
          ∧ Frame.parse reply = .ok (.admin (.of .sendIdentify json))
          ∧ Identity.parse json = .ok { config.identity with digest := digest }
          ∧ Text.Hex.decode? digest
            = some (Crypto.Sha256.hash (encode "device:pbx:1:nonce:secret")) := by
  intro config data
  have valid : config.validate = .ok () := by decide
  have short : (encode "secret").length ≤ Crypto.Gcm.maxLength := by decide
  have hfile : Storage.FileTree.Slot.HoldsFile ⟨[], encode "login", false⟩ := by
    decide
  obtain ⟨sealed, hseal⟩ := Vault.seal?_of_le (v := .ofSecret (encode config.vault.secret)) short
    (Vector.replicate 12 0)
  let host : Host := {
    files := { entries := [([encode "login"], .file Vault.fileMode sealed)] }
    nonces := fun _ => Vector.replicate 12 0 }
  have hslot : host.files.slot (encode "login") = .ok ⟨[], encode "login", false⟩ := rfl
  have hload : (Vault.ofSecret (encode config.vault.secret)).load "login" host.files
      = .ok (encode "secret") := by
    rw [Vault.load, Storage.FileTree.lookup_of_slot hslot hfile]
    exact Vault.openSealed_of_seal? hseal "login"
  refine ⟨valid, host, ?_⟩
  intro handler
  have hpayload := Handshake.payload_challenge "nonce"
  obtain ⟨answers, told, -⟩ := challenge_answered config {} valid [] host handler data
  obtain ⟨reply, hreply⟩ := answers.2
    ⟨"nonce", encode "secret", hpayload, by decide, hload, by decide⟩
  obtain ⟨json, digest, hframe, hidentity, -, -, hdigest⟩ :=
    told reply "nonce" (encode "secret") hreply hpayload hload
  rw [Text.Utf8.decodeLossy_encode] at hdigest
  exact ⟨reply, json, digest, hreply, hframe, hidentity, hdigest⟩

end Site

end PbxAgent
