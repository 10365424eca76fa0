import PbxAgent.Proofs.Agent.Run
import PbxAgent.Proofs.Vault.Secrecy

/-!
# Secrets that cannot be told

Two agents that differ in the secrets of their vaults, on hosts that differ in nonces, say the same to
the same backend (`secret_invisible`): a step on either keeps them alike up to what is in the sealed
files (`Masked.step`).
-/

namespace PbxAgent

open Text.Utf8 (encode)

/-! ## Agents with other vaults -/

/-- The agent with another vault. -/
def Agent.under (a : Agent) (v : Vault) : Agent :=
  { a with handshake := a.handshake.under v }

theorem Agent.under_identitySent (a : Agent) (v : Vault) :
    (a.under v).identitySent = a.identitySent.under v := by
  have hstage : (a.handshake.under v).stage = a.handshake.stage := rfl
  unfold under identitySent Handshake.identitySent
  dsimp only
  rw [hstage]
  split
  · rfl
  · rfl

namespace Site

/-- Sites alike but for the vault, each of which holds the same credentials under its own. -/
structure Masked (v v' : Vault) (paths : CredentialPaths) (s u : Site) : Prop where
  vault_eq : s.agent.handshake.vault = v
  paths_eq : s.agent.handshake.paths = paths
  agent_eq : u.agent = s.agent.under v'
  hosts : Vault.Concealed v v' paths.all s.host u.host

variable {v v' : Vault} {paths : CredentialPaths} {s u : Site}

namespace Masked

theorem frame (h : Masked v v' paths s u) (handler : Handler) (b : Bytes) :
    (s.step (.frame handler b)).1 = (u.step (.frame handler b)).1
      ∧ Masked v v' paths (s.step (.frame handler b)).2 (u.step (.frame handler b)).2 := by
  obtain ⟨agent, host⟩ := u
  obtain ⟨rfl, rfl, rfl, hosts⟩ := h
  cases hp : Frame.parse b with
  | error e =>
    rw [step_frame_of_error hp, step_frame_of_error hp]
    exact ⟨rfl, rfl, rfl, rfl, hosts⟩
  | ok f =>
    cases f with
    | admin m =>
      have reaction := s.agent.handshake.handle_reaction m s.host
      obtain ⟨hreply, hnext, hhosts⟩ :=
        Handshake.handle_correspondence (Vault.concealed_correspondence _ _ _) hosts m
      rw [step_frame_of_admin hp, step_frame_of_admin hp, hreply]
      refine ⟨rfl, reaction.vault_eq, reaction.paths_eq, ?_, hhosts⟩
      simp only [Agent.under] at hnext ⊢
      rw [hnext]
    | tunnel m =>
      rw [step_frame_of_tunnel hp, step_frame_of_tunnel hp]
      exact ⟨rfl, rfl, rfl, rfl, hosts⟩

theorem step (h : Masked v v' paths s u) (i : Input) :
    (s.step i).1 = (u.step i).1 ∧ Masked v v' paths (s.step i).2 (u.step i).2 := by
  cases i with
  | frame handler b => exact h.frame handler b
  | identify | reset =>
    obtain ⟨agent, host⟩ := u
    obtain ⟨rfl, rfl, rfl, hosts⟩ := h
    exact ⟨rfl, rfl, rfl, rfl, hosts⟩
  | identitySent =>
    obtain ⟨agent, host⟩ := u
    obtain ⟨rfl, rfl, rfl, hosts⟩ := h
    obtain ⟨hvault, hpaths⟩ := s.agent.handshake.identitySent_keeps
    exact ⟨rfl, hvault, hpaths, s.agent.under_identitySent v', hosts⟩

/-- The same comes of the same inputs, and the sites stay alike. -/
theorem run (h : Masked v v' paths s u) (inputs : List Input) :
    (s.run inputs).1 = (u.run inputs).1 ∧ Masked v v' paths (s.run inputs).2 (u.run inputs).2 := by
  induction inputs generalizing s u with
  | nil => exact ⟨rfl, h⟩
  | cons i inputs ih =>
    obtain ⟨houtcome, hnext⟩ := h.step i
    obtain ⟨hlog, hlast⟩ := ih hnext
    rw [Site.run, Site.run, houtcome, hlog]
    exact ⟨rfl, hlast⟩

end Masked

/-- **The secret of the vault and the nonces cannot be told from outside.** Two agents are set up alike
but for the secret, on hosts alike but for the nonces, where no path of the vault leads to a file.
Whatever they are handed or told, the same replies and the same errors come of it, in the same order;
and at any time they are at the same stage, with the same identity and digest and the same sessions, and
each loads by its own secret what the other loads by the other. -/
theorem secret_invisible (c : Config) (secret : String) (host : Host)
    (nonces : Nat → Crypto.Gcm.Nonce)
    (vacant : ∀ path ∈ c.vault.paths.all, ∀ mode data,
      host.files.lookup (encode path) ≠ .ok (.file mode data))
    (inputs : List Input) :
    let c' : Config := { c with vault := { c.vault with secret := secret } }
    let s : Site := ⟨.ofConfig c, host⟩
    let s' : Site := ⟨.ofConfig c', { host with nonces := nonces }⟩
    let now := (s.run inputs).2
    let now' := (s'.run inputs).2
    (s.run inputs).1 = (s'.run inputs).1
      ∧ now.agent.handshake.stage = now'.agent.handshake.stage
      ∧ now.agent.handshake.identity = now'.agent.handshake.identity
      ∧ now.agent.tunnels = now'.agent.tunnels
      ∧ ∀ path ∈ c.vault.paths.all,
          (Vault.ofSecret (encode c.vault.secret)).load path now.host.files
            = (Vault.ofSecret (encode secret)).load path now'.host.files := by
  intro c' s s' now now'
  have masked : Masked (.ofSecret (encode c.vault.secret)) (.ofSecret (encode secret)) c.vault.paths
      s s' :=
    ⟨rfl, rfl, rfl, Vault.heldAlike_of_vacant vacant, rfl, rfl⟩
  obtain ⟨hlog, last⟩ := masked.run inputs
  have hagent : now'.agent = now.agent.under (.ofSecret (encode secret)) := last.agent_eq
  rw [hagent]
  exact ⟨hlog, rfl, rfl, rfl, fun path hpath => last.hosts.files.load hpath⟩

/-- A login password is taken on an empty host, under either of two secrets and nonces. -/
theorem secret_invisible_emptyHost :
    let c : Config := { vault := ⟨"login", "admin", "one"⟩ }
    let c' : Config := { c with vault := { c.vault with secret := "two" } }
    let host : Host := { nonces := fun _ => Vector.replicate 12 0 }
    let host' : Host := { host with nonces := fun n => Vector.replicate 12 (UInt8.ofNat n + 1) }
    let password := encode "\x7b\"password\":\"0123456789abcdef0123456789abcdef\"\x7d"
    let inputs : List Input := [.identify, .identitySent,
      .frame (fun _ => .error "none") (AdminMessage.of .receiveLoginPassword password).bytes, .reset]
    let now := (Site.run ⟨.ofConfig c, host⟩ inputs).2
    let now' := (Site.run ⟨.ofConfig c', host'⟩ inputs).2
    (∀ path ∈ c.vault.paths.all, host.files.lookup (encode path) = .error .notFound)
      ∧ (Site.run ⟨.ofConfig c, host⟩ inputs).1 = (Site.run ⟨.ofConfig c', host'⟩ inputs).1
      ∧ now.agent.handshake.stage = now'.agent.handshake.stage
      ∧ ∀ path ∈ c.vault.paths.all,
          (Vault.ofSecret (encode c.vault.secret)).load path now.host.files
            = (Vault.ofSecret (encode "two")).load path now'.host.files := by
  intro c c' host host' password inputs now now'
  have empty : ∀ path ∈ c.vault.paths.all, host.files.lookup (encode path) = .error .notFound := by
    decide
  have vacant : ∀ path ∈ c.vault.paths.all, ∀ mode data,
      host.files.lookup (encode path) ≠ .ok (.file mode data) := by
    intro path hpath mode data
    rw [empty path hpath]
    nofun
  -- Nothing of what the inputs lead to has to be worked out.
  clear_value inputs
  obtain ⟨hlog, hstage, -, -, hload⟩ := secret_invisible c "two" host host'.nonces vacant inputs
  exact ⟨empty, hlog, hstage, hload⟩

end Site

end PbxAgent
