import PbxAgent.Proofs.Agent.Run
import PbxAgent.Proofs.Handshake.Keeping
import PbxAgent.Proofs.Handshake.Payloads

/-!
# Credentials over whole runs

A log tells which passwords were accepted last (`Credentials.ofLog`). Whatever else happens on the
connection, these are the passwords in the vault (`credentials_kept`).
-/

namespace PbxAgent

open Storage (FileTree)
open Storage.FileTree (Slot)
open Text.Utf8 (encode)

/-! ## Passwords in a log -/

/-- The passwords after an input, given what came of it. -/
def Credentials.note (c : Credentials) : Site.Input × Site.Outcome → Credentials
  | (.frame _ b, outcome) =>
    match Frame.parse b with
    | .ok (.admin m) => c.after m outcome
    | _ => c
  | _ => c

/-- The passwords accepted last in a log. -/
def Credentials.ofLog (log : List (Site.Input × Site.Outcome)) : Credentials :=
  log.foldl note {}

theorem Credentials.ofLog_concat (log : List (Site.Input × Site.Outcome))
    (e : Site.Input × Site.Outcome) : ofLog (log ++ [e]) = (ofLog log).note e :=
  List.foldl_concat ..

section
variable (c : Credentials) (handler : Handler) {b : Bytes} (outcome : Site.Outcome)

theorem Credentials.note_of_error {e : FrameError} (hp : Frame.parse b = .error e) :
    c.note (.frame handler b, outcome) = c := by
  simp only [note, hp]

theorem Credentials.note_of_tunnel {m : TunnelMessage} (hp : Frame.parse b = .ok (.tunnel m)) :
    c.note (.frame handler b, outcome) = c := by
  simp only [note, hp]

theorem Credentials.note_of_admin {m : AdminMessage} (hp : Frame.parse b = .ok (.admin m)) :
    c.note (.frame handler b, outcome) = c.after m outcome := by
  simp only [note, hp]

end

theorem Credentials.after_map {α β : Type} (c : Credentials) (m : AdminMessage)
    (r : Except AgentError α) (f : α → β) : c.after m (r.map f) = c.after m r := by
  cases r <;> rfl

theorem Credentials.note_of_accepted (c : Credentials) (handler : Handler) (m : AdminMessage)
    (reply : Option Bytes) : c.note (.frame handler m.bytes, .ok reply) = c.accept m :=
  note_of_admin c handler _ (Frame.parse_adminBytes m)

theorem Credentials.accept_loginPassword (c : Credentials) {data : Bytes} {password : String}
    (h : Handshake.payload Handshake.passwordDecoder data = .ok password) :
    c.accept (.of .receiveLoginPassword data) = { c with login := some (encode password) } := by
  simp only [accept, AdminMessage.of, AdminCommand.ofCode?_code, h]

theorem Credentials.accept_adminPassword {c : Credentials} {data login : Bytes} {r : Handshake.Rotation}
    (hlogin : c.login = some login)
    (h : Handshake.payload Handshake.rotationDecoder data = .ok r) :
    c.accept (.of .receiveAdminPassword data)
      = ⟨c.login, some (Crypto.Rc4.crypt (encode r.seed ++ 0x3A :: login) (encode r.pwd))⟩ := by
  simp only [accept, AdminMessage.of, AdminCommand.ofCode?_code, h, hlogin]

namespace Site

/-- Whether a site has a vault and two paths, and its host holds the passwords there. -/
structure Keeps (s : Site) (v : Vault) (paths : CredentialPaths) (login admin : Slot)
    (c : Credentials) : Prop where
  vault_eq : s.agent.handshake.vault = v
  paths_eq : s.agent.handshake.paths = paths
  host : s.host.Keeps v paths login admin c

namespace Keeps

variable {s : Site} {v : Vault} {paths : CredentialPaths} {login admin : Slot} {c : Credentials}

theorem frame (k : s.Keeps v paths login admin c) (handler : Handler) (b : Bytes) :
    (s.step (.frame handler b)).2.Keeps v paths login admin
      (c.note (.frame handler b, (s.step (.frame handler b)).1)) := by
  obtain ⟨rfl, rfl, hhost⟩ := k
  cases hp : Frame.parse b with
  | error e =>
    rw [Credentials.note_of_error c handler _ hp, step_frame_of_error hp]
    exact ⟨rfl, rfl, hhost⟩
  | ok f =>
    cases f with
    | tunnel m =>
      rw [Credentials.note_of_tunnel c handler _ hp, step_frame_of_tunnel hp]
      exact ⟨rfl, rfl, hhost⟩
    | admin m =>
      have hr := s.agent.handshake.handle_reaction m s.host
      rw [Credentials.note_of_admin c handler _ hp, step_frame_of_admin hp, Credentials.after_map]
      exact ⟨hr.vault_eq, hr.paths_eq, hhost.handle m⟩

theorem step (k : s.Keeps v paths login admin c) (i : Input) :
    (s.step i).2.Keeps v paths login admin (c.note (i, (s.step i).1)) := by
  cases i with
  | frame handler b => exact k.frame handler b
  | identify | reset => exact ⟨k.vault_eq, k.paths_eq, k.host⟩
  | identitySent =>
    have hkeep := s.agent.handshake.identitySent_keeps
    exact ⟨hkeep.1.trans k.vault_eq, hkeep.2.trans k.paths_eq, k.host⟩

/-- Over a run, a site keeps the passwords that its log tells. -/
theorem run (k : s.Keeps v paths login admin c) (is : List Input) :
    (s.run is).2.Keeps v paths login admin ((s.run is).1.foldl Credentials.note c) := by
  induction is generalizing s c with
  | nil => exact k
  | cons i is ih => exact ih (k.step i)

end Keeps

/-! ## The vault after a run -/

/-- A site that is ready for stores, with slots for the two passwords that have nothing in them. -/
structure Prepared (s : Site) (login admin : Slot) : Prop where
  ready : s.Ready
  loginSlot : s.host.files.slot (encode s.agent.handshake.paths.loginPassword) = .ok login
  adminSlot : s.host.files.slot (encode s.agent.handshake.paths.adminPassword) = .ok admin
  loginFile : login.HoldsFile
  adminFile : admin.HoldsFile
  apart : login.place ≠ admin.place
  loginFree : s.host.files.get? login.place = none
  adminFree : s.host.files.get? admin.place = none
  /-- Temporary files are within the limits of the system. -/
  fits : ∀ path ∈ s.agent.handshake.paths.all, ∀ n,
    FileTree.checkPath (Vault.temporaryPath (encode path) s.host.process n) = .ok ()

theorem Prepared.keeps {s : Site} {login admin : Slot} (h : s.Prepared login admin) :
    s.Keeps s.agent.handshake.vault s.agent.handshake.paths login admin {} where
  vault_eq := rfl
  paths_eq := rfl
  host := {
    ready := h.ready
    fits := h.fits
    loginSlot := h.loginSlot
    adminSlot := h.adminSlot
    loginFile := h.loginFile
    adminFile := h.adminFile
    apart := h.apart
    loginHeld := h.loginFree
    adminHeld := h.adminFree
    length := by intro password hp; cases hp }

/-- The outcome of an administrative frame is accepted if the reply is. -/
theorem step_accepts_iff (s : Site) (handler : Handler) (m : AdminMessage) :
    (s.step (.frame handler m.bytes)).1 = .ok none
      ↔ (s.agent.handshake.handle m s.host).1 = .ok none := by
  rw [step_frame_of_admin (Frame.parse_adminBytes m)]
  cases (s.agent.handshake.handle m s.host).1 with
  | error e => simp [Except.map]
  | ok reply => simp [Except.map]

/-- **The vault holds what was accepted.** At any time in a run from a prepared site, loading gives the
login password accepted last, of 32 bytes, and the administrative password accepted last, deciphered
under its seed and the login password then in force; and an error for want of a file as long as none
was. A login password is accepted if it is text of 32 bytes. An administrative password is accepted if
it comes with a seed of 16 bytes, is not empty and no longer than the cipher can seal, and a login
password has been accepted. -/
theorem credentials_kept {s : Site} {login admin : Slot} (prepared : s.Prepared login admin)
    (inputs : List Input) :
    let v := s.agent.handshake.vault
    let paths := s.agent.handshake.paths
    let now := (s.run inputs).2
    let accepted := Credentials.ofLog (s.run inputs).1
    v.load paths.loginPassword now.host.files = Vault.loaded paths.loginPassword accepted.login
      ∧ v.load paths.adminPassword now.host.files = Vault.loaded paths.adminPassword accepted.admin
      ∧ (∀ password, accepted.login = some password → password.length = 32)
      ∧ (∀ handler data,
          (now.step (.frame handler (AdminMessage.of .receiveLoginPassword data).bytes)).1 = .ok none
            ↔ ∃ text, Handshake.payload Handshake.passwordDecoder data = .ok text
                ∧ (encode text).length = 32)
      ∧ (∀ handler data,
          (now.step (.frame handler (AdminMessage.of .receiveAdminPassword data).bytes)).1 = .ok none
            ↔ (∃ r, Handshake.payload Handshake.rotationDecoder data = .ok r
                ∧ (encode r.seed).length = 16 ∧ encode r.pwd ≠ []
                ∧ (encode r.pwd).length ≤ Crypto.Gcm.maxLength) ∧ accepted.login ≠ none) := by
  intro v paths now accepted
  have k : now.Keeps v paths login admin accepted := prepared.keeps.run inputs
  have hhost : now.host.Keeps now.agent.handshake.vault now.agent.handshake.paths login admin
      accepted := by
    rw [k.vault_eq, k.paths_eq]
    exact k.host
  refine ⟨k.host.load_login, k.host.load_admin, k.host.length, ?_, ?_⟩
  · intro handler data
    rw [step_accepts_iff]
    exact hhost.accepts_loginPassword (AdminCommand.ofCode?_code .receiveLoginPassword)
  · intro handler data
    rw [step_accepts_iff]
    exact hhost.accepts_adminPassword (AdminCommand.ofCode?_code .receiveAdminPassword)

theorem vacant_prepared :
    vacant.Prepared ⟨[], encode "login", false⟩ ⟨[], encode "admin", false⟩ where
  ready := vacant_ready
  loginSlot := by decide
  adminSlot := by decide
  loginFile := by decide
  adminFile := by decide
  apart := by decide
  loginFree := rfl
  adminFree := rfl
  fits := by
    intro path hpath n
    exact Vault.checkPath_temporaryPath _ n (vacant_bare path hpath)

/-- A vacant site is brought a login password and then a rotation. It accepts both; the one is loaded as
it was brought, the other deciphered. Before, there was nothing to load. -/
theorem vacant_credentials :
    let login := "12345678123456781234567812345678"
    let seed := "1234567812345678"
    let password := (Json.Value.object [("password", .string login)]).bytes
    let rotation :=
      (Json.Value.object [("seed", .string seed), ("pwd", .string "dummycontent")]).bytes
    let v := vacant.agent.handshake.vault
    vacant.Prepared ⟨[], encode "login", false⟩ ⟨[], encode "admin", false⟩
      ∧ v.load "login" vacant.host.files = .error (.read "login" .notFound)
      ∧ ∀ handler,
          let inputs : List Input :=
            [.frame handler (AdminMessage.of .receiveLoginPassword password).bytes,
              .frame handler (AdminMessage.of .receiveAdminPassword rotation).bytes]
          (vacant.run inputs).1.map Prod.snd = [.ok none, .ok none]
            ∧ v.load "login" (vacant.run inputs).2.host.files = .ok (encode login)
            ∧ v.load "admin" (vacant.run inputs).2.host.files
              = .ok (Crypto.Rc4.crypt (encode seed ++ 0x3A :: encode login)
                  (encode "dummycontent")) := by
  intro login seed password rotation v
  obtain ⟨none, -, -, takesLogin, -⟩ := credentials_kept vacant_prepared []
  refine ⟨vacant_prepared, none, ?_⟩
  intro handler
  let first : Input := .frame handler (AdminMessage.of .receiveLoginPassword password).bytes
  let second : Input := .frame handler (AdminMessage.of .receiveAdminPassword rotation).bytes
  intro inputs
  have hpassword := Handshake.payload_password login
  have hrotation := Handshake.payload_rotation seed "dummycontent"
  have hfirst : (vacant.step first).1 = .ok Option.none :=
    (takesLogin handler password).2 ⟨login, hpassword, by decide⟩
  have hlogin : Credentials.ofLog (vacant.run [first]).1 = { login := some (encode login) } := by
    rw [run, run, hfirst]
    show Credentials.note {} (first, .ok Option.none) = _
    rw [Credentials.note_of_accepted, Credentials.accept_loginPassword _ hpassword]
  obtain ⟨-, -, -, -, takesRotation⟩ := credentials_kept vacant_prepared [first]
  have hsecond : ((vacant.run [first]).2.step second).1 = .ok Option.none := by
    refine (takesRotation handler rotation).2
      ⟨⟨_, hrotation, by decide, by decide, by decide⟩, ?_⟩
    rw [hlogin]
    exact Option.some_ne_none _
  have hlog : (vacant.run inputs).1 = (vacant.run [first]).1 ++ [(second, .ok Option.none)] := by
    rw [← hsecond]
    exact congrArg Prod.fst (run_append vacant [first] [second])
  have hadmin : Credentials.ofLog (vacant.run inputs).1 = ⟨some (encode login),
      some (Crypto.Rc4.crypt (encode seed ++ 0x3A :: encode login) (encode "dummycontent"))⟩ := by
    rw [hlog, Credentials.ofLog_concat, hlogin, Credentials.note_of_accepted,
      Credentials.accept_adminPassword rfl hrotation]
  obtain ⟨loadLogin, loadAdmin, -⟩ := credentials_kept vacant_prepared inputs
  rw [hadmin] at loadLogin loadAdmin
  refine ⟨?_, loadLogin, loadAdmin⟩
  rw [hlog, run, run, hfirst]
  rfl

end Site

end PbxAgent
