import PbxAgent.Proofs.Agent.Run
import PbxAgent.Proofs.Handshake.Passwords
import PbxAgent.Proofs.Handshake.Payloads
import PbxAgent.Proofs.Vault.Detour
import PbxAgent.Proofs.Vault.Holding

/-!
# Frames that fail

A frame that fails leaves everything as it was, but that a request in vain opens its session
(`step_of_error`). Nor can it be told later that there was such a frame: sites that differ only in
sessions that were never answered, in nonces and in temporary names go on alike (`Alike.run`). This
holds where temporary names are for stores alone and are all the same to the system. Where they are not,
a frame that fails may take a file away, or be told by the number that it used up
(`failed_frame_notAtomic`).
-/

namespace PbxAgent.Site

open Storage (FileTree Path)
open Storage.FileTree (Slot)
open Text.Utf8 (encode encode_append)

variable {s u : Site} {handler : Handler} {b : Bytes}

/-! ## Sites that go on alike -/

/-- Sites with the same handshake, the same credentials and the same sessions, but for sessions that
were never answered. -/
structure Alike (s u : Site) : Prop where
  handshake : s.agent.handshake = u.agent.handshake
  hosts : Vault.Interchangeable s.agent.handshake.vault s.agent.handshake.paths.all s.host u.host
  tunnels : Tunnel.Table.Alike s.agent.tunnels u.agent.tunnels

theorem Alike.frame (h : s.Alike u) (handler : Handler) (b : Bytes) :
    (s.step (.frame handler b)).1 = (u.step (.frame handler b)).1
      ∧ (s.step (.frame handler b)).2.Alike (u.step (.frame handler b)).2 := by
  cases hp : Frame.parse b with
  | error e =>
    rw [step_frame_of_error hp, step_frame_of_error hp]
    exact ⟨rfl, h⟩
  | ok f =>
    cases f with
    | admin m =>
      obtain ⟨hreply, hnext, hhosts⟩ :=
        Handshake.handle_bisimulation (Vault.interchangeable_bisimulation _ _) h.hosts m
      have hr := s.agent.handshake.handle_reaction m s.host
      rw [step_frame_of_admin hp, step_frame_of_admin hp, ← h.handshake]
      refine ⟨by rw [hreply], hnext, ?_, h.tunnels⟩
      dsimp only
      rw [hr.vault_eq, hr.paths_eq]
      exact hhosts
    | tunnel m =>
      obtain ⟨hreply, hnext⟩ := h.tunnels.handle handler m
      rw [step_frame_of_tunnel hp, step_frame_of_tunnel hp]
      exact ⟨by rw [hreply], h.handshake, h.hosts, hnext⟩

theorem Alike.step (h : s.Alike u) (i : Input) :
    (s.step i).1 = (u.step i).1 ∧ (s.step i).2.Alike (u.step i).2 := by
  cases i with
  | frame handler b => exact h.frame handler b
  | identify =>
    have houtcome : (s.step .identify).1 = (u.step .identify).1 := by
      simp only [Site.step, Agent.identify, h.handshake]
    refine ⟨houtcome, ?_, h.hosts, h.tunnels⟩
    simp only [Site.step, Agent.identify, h.handshake]
  | identitySent =>
    refine ⟨rfl, ?_, ?_, h.tunnels⟩
    · simp only [Site.step, Agent.identitySent, h.handshake]
    · obtain ⟨hvault, hpaths⟩ := s.agent.handshake.identitySent_keeps
      simp only [Site.step, Agent.identitySent, hvault, hpaths]
      exact h.hosts
  | reset =>
    refine ⟨rfl, ?_, h.hosts, h.tunnels.clear⟩
    simp only [Site.step, Agent.reset, h.handshake]

/-- The same comes of the same inputs. -/
theorem Alike.run (h : s.Alike u) (is : List Input) : (s.run is).1 = (u.run is).1 := by
  induction is generalizing s u with
  | nil => rfl
  | cons i is ih =>
    obtain ⟨houtcome, hnext⟩ := h.step i
    rw [Site.run, Site.run, houtcome, ih hnext]

/-! ## A frame that fails -/

/-- The login password that is stored, and brought once more. -/
def loginText : String := "12345678123456781234567812345678"

/-- That password, as the vault of an empty secret seals it. -/
def sealedLogin : Bytes :=
  ((Vault.ofSecret []).seal? (Vector.replicate 12 0) (encode loginText)).getD []

/-- A rotation of the administrative password. -/
def rotation : Bytes :=
  (Json.Value.object [("seed", .string "1234567812345678"), ("pwd", .string "dummycontent")]).bytes

/-- A site with a login password at the end of a path that is almost too long, and with a directory in
the place of the administrative one. -/
def cramped : Site where
  agent := {
    handshake := .new {} (.ofSecret []) ⟨Vault.detour 815 ++ "login", "admin"⟩
    tunnels := { pieceSize := 4 } }
  host := {
    files := { entries := [([encode "a"], .directory), ([encode "admin"], .directory),
      ([encode "login"], .file Vault.fileMode sealedLogin)] }
    nonces := fun _ => Vector.replicate 12 0
    process := 100 }

/-- The cramped site with a file of another's under the first of the temporary names. -/
def littered : Site where
  agent := cramped.agent
  host := { cramped.host with
    files := cramped.host.files.set [Vault.temporaryName 100 0] (.file 0o644 []) }

/-- Whether a site is like the cramped one, but that there were so many stores and that there may be
files under temporary names. -/
structure IsCramped (n : Nat) (s : Site) : Prop where
  agent : s.agent = cramped.agent
  process : s.host.process = 100
  stores : s.host.stores = UInt64.ofNat n
  root : s.host.files.workingDirectory = []
  way : s.host.files.get? [encode "a"] = some .directory
  admin : s.host.files.get? [encode "admin"] = some .directory
  login : s.host.files.get? [encode "login"] = some (.file Vault.fileMode sealedLogin)
  free : ∀ store, s.host.files.get? [Vault.temporaryName s.host.process store] ≠ some .directory

/-- What is done to a temporary file makes no difference. -/
theorem IsCramped.changed {u : Site} {n m : Nat} {store : UInt64} (h : s.IsCramped n)
    (agent : u.agent = s.agent) (process : u.host.process = s.host.process)
    (stores : u.host.stores = UInt64.ofNat m)
    (changed : FileTree.ChangedAt [Vault.temporaryName s.host.process store] s.host.files
      u.host.files) : u.IsCramped m where
  agent := agent.trans h.agent
  process := process.trans h.process
  stores := stores
  root := changed.workingDirectory.symm.trans h.root
  way := (changed.others _ (Vault.temporaryName_ne _ _ (by decide))).trans h.way
  admin := (changed.others _ (Vault.temporaryName_ne _ _ (by decide))).trans h.admin
  login := (changed.others _ (Vault.temporaryName_ne _ _ (by decide))).trans h.login
  free other := by
    rw [process, Ne, ← changed.directory_iff]
    exact h.free other

namespace IsCramped

variable {n : Nat} (h : s.IsCramped n)
include h

theorem load_login : s.agent.handshake.vault.load s.agent.handshake.paths.loginPassword s.host.files
    = .ok (encode loginText) := by
  obtain ⟨sealed, hseal⟩ := Vault.seal?_of_le (v := .ofSecret []) (p := encode loginText) (by decide)
    (Vector.replicate 12 0)
  have hsealed : sealedLogin = sealed := by rw [sealedLogin, hseal, Option.getD_some]
  have holds : (Vault.ofSecret []).Holds s.host.files [encode "login"] (some (encode loginText)) := by
    refine ⟨sealedLogin, h.login, ?_⟩
    rw [hsealed]
    exact Vault.openSealed_of_seal? hseal
  have hslot : s.host.files.slot (encode (Vault.detour 815 ++ "login"))
      = .ok ⟨[], encode "login", false⟩ := by
    rw [encode_append]
    exact Vault.slot_detour h.way h.root (by decide) (by decide) (by decide) (by decide)
  rw [h.agent]
  exact holds.load hslot (by decide)

/-- The store of an administrative password makes its temporary file, cannot put it in the place of the
directory, and removes it. -/
theorem store_admin {password : Bytes} (short : password.length ≤ Crypto.Gcm.maxLength) :
    ∃ sealed, s.agent.handshake.vault.store password s.agent.handshake.paths.adminPassword s.host
      = (.error (.write "admin" .isDirectory),
          { s.host with
            files := (s.host.files.set [Vault.temporaryName s.host.process s.host.stores]
              (.file Vault.fileMode sealed)).erase
                [Vault.temporaryName s.host.process s.host.stores]
            drawn := s.host.drawn + 1
            stores := s.host.stores + 1 }) := by
  obtain ⟨sealed, hseal⟩ := Vault.seal?_of_le (v := s.agent.handshake.vault) short
    (s.host.nonces s.host.drawn)
  have hpath : s.agent.handshake.paths.adminPassword = "admin" := by
    rw [h.agent]
    rfl
  have hseg : Path.segments (encode "admin") = [encode "admin"] := by decide
  have hwd : s.host.files.get? s.host.files.workingDirectory = some .directory := by
    rw [h.root, FileTree.get?_nil]
  have hmade := Vault.placeOf_temporaryPath_bare hseg hwd s.host.process s.host.stores (by
    rw [h.root]
    exact h.free s.host.stores)
  rw [h.root, List.nil_append] at hmade
  have hslot : s.host.files.slot (encode "admin") = .ok ⟨[], encode "admin", false⟩ := by
    rw [← List.nil_append [encode "admin"]] at hseg
    rw [FileTree.slot_of_segments hseg (by decide)]
    exact FileTree.slotIn_of_walk false rfl (congrArg Except.ok h.root) s.host.files.get?_nil
  have hmoved : (s.host.files.set [Vault.temporaryName s.host.process s.host.stores]
      (.file Vault.fileMode sealed)).placeOf Slot.moveFault (encode "admin")
        = .error .isDirectory := by
    have hne := Vault.temporaryName_ne s.host.process s.host.stores (n := encode "admin") (by decide)
    have hget := (FileTree.get?_set_ne (.file Vault.fileMode sealed) hne).trans h.admin
    have hfault : Slot.moveFault ⟨[], encode "admin", false⟩ = none := by decide
    rw [FileTree.placeOf, FileTree.slot_set_file (h.free _) Vault.fileMode sealed hslot (by decide)]
    simp only [hfault, Slot.place, List.nil_append, hget, if_true]
  rw [hpath, Vault.store_of_unplaced hseal hmade hmoved]
  exact ⟨sealed, rfl⟩

theorem newAdminPassword : ∃ password,
    s.agent.handshake.newAdminPassword rotation s.host = .ok password
      ∧ password.length ≤ Crypto.Gcm.maxLength := by
  refine ⟨_, Handshake.newAdminPassword_eq_ok.2 ⟨⟨"1234567812345678", "dummycontent"⟩,
    encode loginText, Handshake.payload_rotation _ _, by decide, by decide, h.load_login, by decide,
    rfl⟩, ?_⟩
  rw [Crypto.Rc4.length_crypt]
  decide

end IsCramped

end PbxAgent.Site
