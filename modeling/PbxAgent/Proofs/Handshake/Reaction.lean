import PbxAgent.Handshake
import PbxAgent.Proofs.Vault.Bisimulation

/-!
# Reactions of the handshake

All that an administrative message can do, case by case (`Reaction`). Of the host a reaction sees
what stores and loads give, so that it is the same on hosts with the same credentials
(`handle_bisimulation`).
-/

namespace PbxAgent

/-- The paths of the two passwords. -/
def CredentialPaths.all (p : CredentialPaths) : List String :=
  [p.loginPassword, p.adminPassword]

theorem CredentialPaths.login_mem (p : CredentialPaths) : p.loginPassword ∈ p.all :=
  List.mem_cons_self

theorem CredentialPaths.admin_mem (p : CredentialPaths) : p.adminPassword ∈ p.all :=
  List.mem_cons_of_mem _ List.mem_cons_self

namespace Handshake

/-! ## Cases -/

/-- The handshake with a challenge answered by a digest. -/
def authenticated (h : Handshake) (digest : String) : Handshake :=
  { h with identity := { h.identity with digest := digest }, stage := .authenticated }

/-- What an administrative message may do, with the reply that it gets. -/
inductive Reaction (h : Handshake) (m : AdminMessage) (g : Host) :
    Except AgentError (Option AdminMessage) → Handshake → Host → Prop where
  | kept {password : Bytes} {g' : Host}
      (command : AdminCommand.ofCode? m.command = some .receiveLoginPassword)
      (new : newLoginPassword m.data = .ok password)
      (store : h.vault.store password h.paths.loginPassword g = (.ok (), g')) :
      Reaction h m g (.ok none) h g'
  | notKept {password : Bytes} {e : CredentialError} {g' : Host}
      (command : AdminCommand.ofCode? m.command = some .receiveLoginPassword)
      (new : newLoginPassword m.data = .ok password)
      (store : h.vault.store password h.paths.loginPassword g = (.error e, g')) :
      Reaction h m g (.error (.credential e)) h g'
  | answered {digest : String}
      (command : AdminCommand.ofCode? m.command = some .receiveChallenge)
      (answer : h.answer m.data g = .ok digest) :
      Reaction h m g (.ok (some (h.authenticated digest).presentation)) (h.authenticated digest) g
  | rotated {password : Bytes} {g' : Host}
      (command : AdminCommand.ofCode? m.command = some .receiveAdminPassword)
      (new : h.newAdminPassword m.data g = .ok password)
      (store : h.vault.store password h.paths.adminPassword g = (.ok (), g')) :
      Reaction h m g (.ok none) { h with stage := .passwordsRotated } g'
  | notRotated {password : Bytes} {e : CredentialError} {g' : Host}
      (command : AdminCommand.ofCode? m.command = some .receiveAdminPassword)
      (new : h.newAdminPassword m.data g = .ok password)
      (store : h.vault.store password h.paths.adminPassword g = (.error e, g')) :
      Reaction h m g (.error (.credential e)) h g'
  /-- Nothing is stored for a message that is refused. -/
  | refused {e : AgentError} : Reaction h m g (.error e) h g

variable {h : Handshake} {m : AdminMessage} {g g' : Host}

theorem handle_of_loginPassword
    (command : AdminCommand.ofCode? m.command = some .receiveLoginPassword) :
    h.handle m g = ((h.receiveLoginPassword m.data g).1.map fun _ => none, h,
      (h.receiveLoginPassword m.data g).2) := by
  simp only [handle, command]

theorem handle_of_challenge (command : AdminCommand.ofCode? m.command = some .receiveChallenge) :
    h.handle m g = ((h.receiveChallenge m.data g).1.map some, (h.receiveChallenge m.data g).2, g)
    := by
  simp only [handle, command]

theorem handle_of_adminPassword
    (command : AdminCommand.ofCode? m.command = some .receiveAdminPassword) :
    h.handle m g = ((h.receiveAdminPassword m.data g).1.map fun _ => none,
      (h.receiveAdminPassword m.data g).2) := by
  simp only [handle, command]

theorem handle_of_unknown (command : ∀ c ∈ [AdminCommand.receiveLoginPassword, .receiveChallenge,
      .receiveAdminPassword], AdminCommand.ofCode? m.command ≠ some c) :
    h.handle m g = (.error (.protocol (.unknownCommand m.command)), h, g) := by
  unfold handle
  split
  · exact absurd ‹_› (command _ (by simp))
  · exact absurd ‹_› (command _ (by simp))
  · exact absurd ‹_› (command _ (by simp))
  · rfl

/-- Every command is one of the three that are acted on, or refused. -/
theorem command_cases (code : UInt16) :
    AdminCommand.ofCode? code = some .receiveLoginPassword
      ∨ AdminCommand.ofCode? code = some .receiveChallenge
      ∨ AdminCommand.ofCode? code = some .receiveAdminPassword
      ∨ ∀ c ∈ [AdminCommand.receiveLoginPassword, .receiveChallenge, .receiveAdminPassword],
          AdminCommand.ofCode? code ≠ some c := by
  cases AdminCommand.ofCode? code with
  | none => simp
  | some c => cases c <;> simp

/-- A message does one of the things that are listed. -/
theorem handle_reaction (h : Handshake) (m : AdminMessage) (g : Host) :
    Reaction h m g (h.handle m g).1 (h.handle m g).2.1 (h.handle m g).2.2 := by
  rcases command_cases m.command with command | command | command | command
  · rw [handle_of_loginPassword command, receiveLoginPassword]
    cases new : newLoginPassword m.data with
    | error e => exact .refused
    | ok password =>
      rcases store : h.vault.store password h.paths.loginPassword g with ⟨r, g'⟩
      cases r with
      | error e =>
        simp only [store]
        exact .notKept command new store
      | ok _ =>
        simp only [store]
        exact .kept command new store
  · rw [handle_of_challenge command, receiveChallenge]
    cases answer : h.answer m.data g with
    | error e => exact .refused
    | ok digest => exact .answered command answer
  · rw [handle_of_adminPassword command, receiveAdminPassword]
    cases new : h.newAdminPassword m.data g with
    | error e => exact .refused
    | ok password =>
      rcases store : h.vault.store password h.paths.adminPassword g with ⟨r, g'⟩
      cases r with
      | error e =>
        simp only [store]
        exact .notRotated command new store
      | ok _ =>
        simp only [store]
        exact .rotated command new store
  · rw [handle_of_unknown command]
    exact .refused

/-! ## What every reaction keeps -/

section
variable {r : Except AgentError (Option AdminMessage)} {k : Handshake}

theorem Reaction.vault_eq (hr : Reaction h m g r k g') : k.vault = h.vault := by
  cases hr <;> rfl

theorem Reaction.paths_eq (hr : Reaction h m g r k g') : k.paths = h.paths := by
  cases hr <;> rfl

theorem Reaction.process_eq (hr : Reaction h m g r k g') : g'.process = g.process := by
  cases hr with
  | @kept password _ command new store | @notKept password _ _ command new store =>
    have hprocess := Vault.process_store h.vault password h.paths.loginPassword g
    rw [store] at hprocess
    exact hprocess
  | @rotated password _ command new store | @notRotated password _ _ command new store =>
    have hprocess := Vault.process_store h.vault password h.paths.adminPassword g
    rw [store] at hprocess
    exact hprocess
  | answered | refused => rfl

/-- The host stays ready for stores. -/
theorem Reaction.ready (hr : Reaction h m g r k g') (ready : g.Ready h.paths.all) :
    g'.Ready h.paths.all := by
  cases hr with
  | @kept password _ command new store | @notKept password _ _ command new store =>
    have hready := Vault.ready_store ready h.paths.login_mem h.vault password
    rw [store] at hready
    exact hready
  | @rotated password _ command new store | @notRotated password _ _ command new store =>
    have hready := Vault.ready_store ready h.paths.admin_mem h.vault password
    rw [store] at hready
    exact hready
  | answered | refused => exact ready

/-- A message that fails leaves the handshake and the files as they are. -/
theorem Reaction.of_error {e : AgentError} (hr : Reaction h m g (.error e) k g')
    (ready : g.Ready h.paths.all) : k = h ∧ g'.files = g.files := by
  cases hr with
  | @notKept password _ _ command new store =>
    have hstored := Vault.store_stored ready h.vault password h.paths.loginPassword
    rw [store] at hstored
    cases hstored with
    | failed files => exact ⟨rfl, files⟩
  | @notRotated password _ _ command new store =>
    have hstored := Vault.store_stored ready h.vault password h.paths.adminPassword
    rw [store] at hstored
    cases hstored with
    | failed files => exact ⟨rfl, files⟩
  | refused => exact ⟨rfl, rfl⟩

end

theorem identitySent_keeps (h : Handshake) :
    h.identitySent.vault = h.vault ∧ h.identitySent.paths = h.paths := by
  unfold identitySent
  split
  · exact ⟨rfl, rfl⟩
  · exact ⟨rfl, rfl⟩

/-! ## Hosts with the same credentials -/

/-- The handshake with another vault. -/
def under (h : Handshake) (v : Vault) : Handshake :=
  { h with vault := v }

@[simp] theorem under_vault (h : Handshake) : h.under h.vault = h := rfl

/-- Reactions under vaults that correspond are the same but for the vault, and leave the hosts so. -/
theorem handle_correspondence {v : Vault} {Rel : Host → Host → Prop}
    (c : h.vault.Correspondence v h.paths.all Rel) (hg : Rel g g') (m : AdminMessage) :
    (h.handle m g).1 = ((h.under v).handle m g').1
      ∧ (h.handle m g).2.1.under v = ((h.under v).handle m g').2.1
      ∧ Rel (h.handle m g).2.2 ((h.under v).handle m g').2.2 := by
  -- Of the host, a message sees the login password and how a store ends, and nothing else.
  have hload : h.loginPassword g = (h.under v).loginPassword g' := by
    rw [loginPassword, loginPassword, c.load hg _ h.paths.login_mem]
    rfl
  rcases command_cases m.command with command | command | command | command
  · rw [handle_of_loginPassword command, handle_of_loginPassword command, receiveLoginPassword,
      receiveLoginPassword]
    cases newLoginPassword m.data with
    | error e => exact ⟨rfl, rfl, hg⟩
    | ok password =>
      obtain ⟨hresult, hrel⟩ := c.store hg h.paths.login_mem password
      exact ⟨by simp only [hresult, under], rfl, hrel⟩
  · have hanswer : h.answer m.data g = (h.under v).answer m.data g' := by
      rw [answer, answer, hload]
      rfl
    rw [handle_of_challenge command, handle_of_challenge command, receiveChallenge,
      receiveChallenge, hanswer]
    cases (h.under v).answer m.data g' with
    | error e => exact ⟨rfl, rfl, hg⟩
    | ok digest => exact ⟨rfl, rfl, hg⟩
  · have hnew : h.newAdminPassword m.data g = (h.under v).newAdminPassword m.data g' := by
      rw [newAdminPassword, newAdminPassword, hload]
    rw [handle_of_adminPassword command, handle_of_adminPassword command, receiveAdminPassword,
      receiveAdminPassword, hnew]
    cases (h.under v).newAdminPassword m.data g' with
    | error e => exact ⟨rfl, rfl, hg⟩
    | ok password =>
      obtain ⟨hresult, hrel⟩ := c.store hg h.paths.admin_mem password
      rcases hs : h.vault.store password h.paths.adminPassword g with ⟨r, k⟩
      rcases hs' : v.store password h.paths.adminPassword g' with ⟨r', k'⟩
      rw [hs, hs'] at hresult hrel
      cases hresult
      simp only [hs, hs', under]
      cases r with
      | error e => exact ⟨rfl, rfl, hrel⟩
      | ok _ => exact ⟨rfl, rfl, hrel⟩
  · rw [handle_of_unknown command, handle_of_unknown command]
    exact ⟨rfl, rfl, hg⟩

/-- Reactions on hosts with the same credentials are the same, and leave them the same. -/
theorem handle_bisimulation {Rel : Host → Host → Prop} (b : h.vault.Bisimulation h.paths.all Rel)
    (hg : Rel g g') (m : AdminMessage) :
    (h.handle m g).1 = (h.handle m g').1 ∧ (h.handle m g).2.1 = (h.handle m g').2.1
      ∧ Rel (h.handle m g).2.2 (h.handle m g').2.2 := by
  obtain ⟨hreply, hnext, hrel⟩ := handle_correspondence b.correspondence hg m
  rw [under_vault] at hreply hnext hrel
  rw [← (h.handle_reaction m g).vault_eq, under_vault] at hnext
  exact ⟨hreply, hnext, hrel⟩

end Handshake

end PbxAgent
