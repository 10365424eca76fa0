import PbxAgent.Proofs.Handshake.Passwords
import PbxAgent.Proofs.Handshake.Reaction
import PbxAgent.Proofs.Vault.Holding

/-!
# Keeping the passwords

The passwords that have been accepted last (`Credentials`) are what a host holds in the places of the
two files (`Keeps`), and every message leaves it so (`Keeps.handle`). On such a host it is known from
a message, and from what has been accepted, whether it will be (`Keeps.accepts_loginPassword`,
`Keeps.accepts_adminPassword`).
-/

namespace PbxAgent

open Storage (FileTree)
open Storage.FileTree (Slot)
open Text.Utf8 (encode)

/-! ## Accepted passwords -/

/-- The two passwords as they were accepted last, if ever. -/
structure Credentials where
  login : Option Bytes := none
  admin : Option Bytes := none

/-- The passwords after a message that is accepted. An administrative password comes enciphered under
its seed and the login password in force. -/
def Credentials.accept (c : Credentials) (m : AdminMessage) : Credentials :=
  match AdminCommand.ofCode? m.command with
  | some .receiveLoginPassword =>
    match Handshake.payload Handshake.passwordDecoder m.data with
    | .ok text => { c with login := some (encode text) }
    | .error _ => c
  | some .receiveAdminPassword =>
    match Handshake.payload Handshake.rotationDecoder m.data, c.login with
    | .ok r, some login =>
      { c with admin := some (Crypto.Rc4.crypt (encode r.seed ++ 0x3A :: login) (encode r.pwd)) }
    | _, _ => c
  | _ => c

/-- The passwords after a message with its result. -/
def Credentials.after {α : Type} (c : Credentials) (m : AdminMessage) : Except AgentError α → Credentials
  | .ok _ => c.accept m
  | .error _ => c

/-! ## Hosts that keep them -/

/-- Whether a host holds the passwords, each in a slot of its own, and can take others. -/
structure Host.Keeps (g : Host) (v : Vault) (paths : CredentialPaths) (login admin : Slot)
    (c : Credentials) : Prop where
  ready : g.Ready paths.all
  fits : ∀ path ∈ paths.all, ∀ n,
    FileTree.checkPath (Vault.temporaryPath (encode path) g.process n) = .ok ()
  loginSlot : g.files.slot (encode paths.loginPassword) = .ok login
  adminSlot : g.files.slot (encode paths.adminPassword) = .ok admin
  loginFile : login.HoldsFile
  adminFile : admin.HoldsFile
  apart : login.place ≠ admin.place
  loginHeld : v.Holds g.files login.place c.login
  adminHeld : v.Holds g.files admin.place c.admin
  length : ∀ password, c.login = some password → password.length = Credential.loginPasswordLength

namespace Host.Keeps

variable {g g' : Host} {v : Vault} {paths : CredentialPaths} {login admin : Slot} {c : Credentials}

theorem load_login (k : g.Keeps v paths login admin c) :
    v.load paths.loginPassword g.files = Vault.loaded paths.loginPassword c.login :=
  k.loginHeld.load k.loginSlot k.loginFile

theorem load_admin (k : g.Keeps v paths login admin c) :
    v.load paths.adminPassword g.files = Vault.loaded paths.adminPassword c.admin :=
  k.adminHeld.load k.adminSlot k.adminFile

theorem congr (k : g.Keeps v paths login admin c) (files : g'.files = g.files)
    (process : g'.process = g.process) : g'.Keeps v paths login admin c where
  ready := k.ready.congr files process
  fits := by
    rw [process]
    exact k.fits
  loginSlot := by
    rw [files]
    exact k.loginSlot
  adminSlot := by
    rw [files]
    exact k.adminSlot
  loginFile := k.loginFile
  adminFile := k.adminFile
  apart := k.apart
  loginHeld := by
    rw [files]
    exact k.loginHeld
  adminHeld := by
    rw [files]
    exact k.adminHeld
  length := k.length

/-- A file may be replaced where there was no directory, as long as the passwords are there after. -/
theorem replace (k : g.Keeps v paths login admin c) {q : Storage.Place} {sealed : Bytes}
    {c' : Credentials} (hq : g.files.get? q ≠ some .directory)
    (files : g'.files = g.files.set q (.file Vault.fileMode sealed))
    (process : g'.process = g.process) (ready : g'.Ready paths.all)
    (hlogin : v.Holds g'.files login.place c'.login) (hadmin : v.Holds g'.files admin.place c'.admin)
    (hlength : ∀ password, c'.login = some password →
      password.length = Credential.loginPasswordLength) :
    g'.Keeps v paths login admin c' where
  ready := ready
  fits := by
    rw [process]
    exact k.fits
  loginSlot := by
    rw [files]
    exact FileTree.slot_set_file hq _ _ k.loginSlot k.loginFile
  adminSlot := by
    rw [files]
    exact FileTree.slot_set_file hq _ _ k.adminSlot k.adminFile
  loginFile := k.loginFile
  adminFile := k.adminFile
  apart := k.apart
  loginHeld := hlogin
  adminHeld := hadmin
  length := hlength

/-! ## Stores -/

theorem store_login (k : g.Keeps v paths login admin c) {password : Bytes}
    (hlen : password.length = Credential.loginPasswordLength) :
    (v.store password paths.loginPassword g).1 = .ok ()
      ∧ (v.store password paths.loginPassword g).2.Keeps v paths login admin
          { c with login := some password } := by
  have short : password.length ≤ Crypto.Gcm.maxLength := by
    rw [hlen]
    decide
  have hok := Vault.store_ok (v := v) k.ready paths.login_mem k.loginSlot k.loginFile
    k.loginHeld.ne_directory (k.fits _ paths.login_mem _) short
  obtain ⟨sealed, opens, files⟩ :=
    Vault.store_slot k.ready k.loginSlot hok
  refine ⟨hok, k.replace k.loginHeld.ne_directory files (Vault.process_store _ _ _ _)
    (Vault.ready_store k.ready paths.login_mem _ _) ?_ ?_ ?_⟩
  · rw [files]
    exact Vault.holds_set_self login.place_ne_nil opens
  · rw [files]
    exact k.adminHeld.set_ne (Ne.symm k.apart) _
  · intro p hp
    cases hp
    exact hlen

theorem store_admin (k : g.Keeps v paths login admin c) {password : Bytes}
    (short : password.length ≤ Crypto.Gcm.maxLength) :
    (v.store password paths.adminPassword g).1 = .ok ()
      ∧ (v.store password paths.adminPassword g).2.Keeps v paths login admin
          { c with admin := some password } := by
  have hok := Vault.store_ok (v := v) k.ready paths.admin_mem k.adminSlot k.adminFile
    k.adminHeld.ne_directory (k.fits _ paths.admin_mem _) short
  obtain ⟨sealed, opens, files⟩ :=
    Vault.store_slot k.ready k.adminSlot hok
  refine ⟨hok, k.replace k.adminHeld.ne_directory files (Vault.process_store _ _ _ _)
    (Vault.ready_store k.ready paths.admin_mem _ _) ?_ ?_ k.length⟩
  · rw [files]
    exact k.loginHeld.set_ne k.apart _
  · rw [files]
    exact Vault.holds_set_self admin.place_ne_nil opens

/-! ## Messages -/

variable {h : Handshake} {m : AdminMessage}

/-- A message leaves the host with the passwords that are then the last accepted. -/
theorem handle (k : g.Keeps h.vault h.paths login admin c) (m : AdminMessage) :
    (h.handle m g).2.2.Keeps h.vault h.paths login admin (c.after m (h.handle m g).1) := by
  have hr := h.handle_reaction m g
  generalize h.handle m g = r at hr
  obtain ⟨result, h', g'⟩ := r
  cases hr with
  | @kept password _ command new store =>
    obtain ⟨text, hpayload, hlen, rfl⟩ := Handshake.newLoginPassword_eq_ok.1 new
    obtain ⟨-, hkeeps⟩ := k.store_login hlen
    rw [store] at hkeeps
    simpa only [Credentials.after, Credentials.accept, command, hpayload] using hkeeps
  | @rotated password _ command new store =>
    -- The login password that was loaded is the one accepted last.
    obtain ⟨r, old, hpayload, -, -, hload, -, rfl⟩ := Handshake.newAdminPassword_eq_ok.1 new
    rw [k.load_login, Vault.loaded_eq_ok] at hload
    have short := Vault.length_le_of_store (congrArg Prod.fst store)
    obtain ⟨-, hkeeps⟩ := k.store_admin short
    rw [store] at hkeeps
    rw [Credential.adminPasswordKey] at hkeeps
    simpa only [Credentials.after, Credentials.accept, command, hpayload, hload] using hkeeps
  | answered command answer =>
    simpa only [Credentials.after, Credentials.accept, command] using k
  | notKept command new store =>
    obtain ⟨-, files⟩ := Handshake.Reaction.of_error (.notKept command new store) k.ready
    exact k.congr files (Handshake.Reaction.process_eq (.notKept command new store))
  | notRotated command new store =>
    obtain ⟨-, files⟩ := Handshake.Reaction.of_error (.notRotated command new store) k.ready
    exact k.congr files (Handshake.Reaction.process_eq (.notRotated command new store))
  | refused => exact k

/-- A login password is accepted if it is one of the right length. -/
theorem accepts_loginPassword (k : g.Keeps h.vault h.paths login admin c)
    (command : AdminCommand.ofCode? m.command = some .receiveLoginPassword) :
    (h.handle m g).1 = .ok none
      ↔ ∃ text, Handshake.payload Handshake.passwordDecoder m.data = .ok text
          ∧ (encode text).length = Credential.loginPasswordLength := by
  rw [Handshake.handle_of_loginPassword command, Handshake.receiveLoginPassword]
  constructor
  · intro hok
    cases new : Handshake.newLoginPassword m.data with
    | error e =>
      rw [new] at hok
      cases hok
    | ok password =>
      obtain ⟨text, hpayload, hlen, -⟩ := Handshake.newLoginPassword_eq_ok.1 new
      exact ⟨text, hpayload, hlen⟩
  · rintro ⟨text, hpayload, hlen⟩
    obtain ⟨hok, -⟩ := k.store_login hlen
    rw [Handshake.newLoginPassword_eq_ok.2 ⟨text, hpayload, hlen, rfl⟩]
    simp only [hok]
    rfl

/-- An administrative password is accepted if it comes with a seed, can be deciphered and is not too
long to be sealed. -/
theorem accepts_adminPassword (k : g.Keeps h.vault h.paths login admin c)
    (command : AdminCommand.ofCode? m.command = some .receiveAdminPassword) :
    (h.handle m g).1 = .ok none
      ↔ (∃ r, Handshake.payload Handshake.rotationDecoder m.data = .ok r
          ∧ (encode r.seed).length = Credential.seedLength ∧ encode r.pwd ≠ []
          ∧ (encode r.pwd).length ≤ Crypto.Gcm.maxLength) ∧ c.login ≠ none := by
  have hload := k.load_login
  rw [Handshake.handle_of_adminPassword command, Handshake.receiveAdminPassword]
  constructor
  · intro hok
    cases new : h.newAdminPassword m.data g with
    | error e =>
      rw [new] at hok
      cases hok
    | ok password =>
      obtain ⟨r, old, hpayload, hseed, hpwd, hold, -, rfl⟩ := Handshake.newAdminPassword_eq_ok.1 new
      rw [hload, Vault.loaded_eq_ok] at hold
      refine ⟨⟨r, hpayload, hseed, hpwd, ?_⟩, by simp [hold]⟩
      rcases store : h.vault.store (Crypto.Rc4.crypt (Credential.adminPasswordKey old r.seed)
        (encode r.pwd)) h.paths.adminPassword g with ⟨result, g'⟩
      cases result with
      | error e =>
        simp only [new, store] at hok
        cases hok
      | ok _ =>
        have short := Vault.length_le_of_store (congrArg Prod.fst store)
        rwa [Crypto.Rc4.length_crypt] at short
  · rintro ⟨⟨r, hpayload, hseed, hpwd, short⟩, hlogin⟩
    obtain ⟨old, hold⟩ := Option.ne_none_iff_exists'.1 hlogin
    -- It was accepted, so it has the length that the cipher's key wants.
    have hlen := k.length old hold
    rw [hold] at hload
    have new := Handshake.newAdminPassword_eq_ok.2 ⟨r, old, hpayload, hseed, hpwd, hload, hlen, rfl⟩
    rw [← Crypto.Rc4.length_crypt (Credential.adminPasswordKey old r.seed)] at short
    obtain ⟨hok, -⟩ := k.store_admin short
    rw [new]
    rcases store : h.vault.store (Crypto.Rc4.crypt (Credential.adminPasswordKey old r.seed)
      (encode r.pwd)) h.paths.adminPassword g with ⟨result, g'⟩
    rw [store] at hok
    cases hok
    simp only [store]
    rfl

end Host.Keeps

end PbxAgent
