import PbxAgent.Proofs.Agent.Credentials

/-!
# Administrative passwords that can be delivered

The backend enciphers an administrative password under a seed and the login password, and the cipher text
travels as text. Any text does (`Handshake.payload_rotation`), but a cipher text need not be the bytes of
one: the passwords that can be delivered are those whose cipher text is (`deliverable_iff`).
-/

namespace PbxAgent

open Storage (FileTree)
open Text.Utf8 (encode decode?)

/-! ## Passwords that are brought -/

namespace Handshake

variable {h : Handshake} {data password : Bytes} {host : Host}

/-- The password that a rotation brings is the one that is stored. -/
theorem receiveAdminPassword_host (new : h.newAdminPassword data host = .ok password) :
    (h.receiveAdminPassword data host).2.2 = (h.vault.store password h.paths.adminPassword host).2 := by
  rcases store : h.vault.store password h.paths.adminPassword host with ⟨result, host'⟩
  cases result <;> simp only [receiveAdminPassword, new, store]

theorem receiveAdminPassword_eq_ok :
    (h.receiveAdminPassword data host).1 = .ok ()
      ↔ ∃ password, h.newAdminPassword data host = .ok password
        ∧ (h.vault.store password h.paths.adminPassword host).1 = .ok () := by
  cases new : h.newAdminPassword data host with
  | error e => simp [receiveAdminPassword, new]
  | ok password =>
    rcases store : h.vault.store password h.paths.adminPassword host with ⟨result, host'⟩
    cases result <;> simp [receiveAdminPassword, new, store]

end Handshake

namespace Site

/-- The administrative password in the vault. -/
def adminPassword (s : Site) : Except CredentialError Bytes :=
  s.agent.handshake.vault.load s.agent.handshake.paths.adminPassword s.host.files

section
variable {s : Site} {handler : Handler} {data password : Bytes}

/-- A rotation is accepted if it brings a password and the password can be stored. -/
theorem step_rotation_eq_ok :
    (s.step (.frame handler (AdminMessage.of .receiveAdminPassword data).bytes)).1 = .ok none
      ↔ ∃ password, s.agent.handshake.newAdminPassword data s.host = .ok password
        ∧ (s.agent.handshake.vault.store password s.agent.handshake.paths.adminPassword s.host).1
          = .ok () := by
  rw [step_accepts_iff,
    Handshake.handle_of_adminPassword (AdminCommand.ofCode?_code .receiveAdminPassword),
    ← Handshake.receiveAdminPassword_eq_ok]
  show (Except.map _ (s.agent.handshake.receiveAdminPassword data s.host).1 = _) ↔ _
  cases (s.agent.handshake.receiveAdminPassword data s.host).1 with
  | error e => simp [Except.map]
  | ok _ => simp [Except.map]

theorem adminPassword_step (new : s.agent.handshake.newAdminPassword data s.host = .ok password) :
    (s.step (.frame handler (AdminMessage.of .receiveAdminPassword data).bytes)).2.adminPassword
      = s.agent.handshake.vault.load s.agent.handshake.paths.adminPassword
        (s.agent.handshake.vault.store password s.agent.handshake.paths.adminPassword
          s.host).2.files := by
  have hr := s.agent.handshake.handle_reaction (.of .receiveAdminPassword data) s.host
  rw [adminPassword, step_frame_of_admin (Frame.parse_adminBytes _)]
  show Vault.load (Handshake.vault _) (Handshake.paths _).adminPassword _ = _
  rw [hr.vault_eq, hr.paths_eq,
    Handshake.handle_of_adminPassword (AdminCommand.ofCode?_code .receiveAdminPassword)]
  show Vault.load _ _ (s.agent.handshake.receiveAdminPassword data s.host).2.2.files = _
  rw [Handshake.receiveAdminPassword_host new]

end

/-! ## Delivery -/

/-- A site with a login password in its vault, and with a place for an administrative one. -/
structure Provided (s : Site) (login : Bytes) : Prop where
  ready : s.Ready
  loaded : s.agent.handshake.vault.load s.agent.handshake.paths.loginPassword s.host.files = .ok login
  length : login.length = Credential.loginPasswordLength
  /-- The administrative password has a place, and no directory is there. -/
  place : ∃ slot, s.host.files.slot (encode s.agent.handshake.paths.adminPassword) = .ok slot
    ∧ slot.HoldsFile ∧ s.host.files.get? slot.place ≠ some .directory
  /-- The next temporary file is within the limits of the system. -/
  fits : FileTree.checkPath (Vault.temporaryPath (encode s.agent.handshake.paths.adminPassword)
    s.host.process s.host.stores) = .ok ()

/-- Whether a command that comes with a seed gets an administrative password into the vault. -/
def Delivers (s : Site) (seed : String) (password data : Bytes) : Prop :=
  (∃ r, Handshake.payload Handshake.rotationDecoder data = .ok r ∧ r.seed = seed)
    ∧ ∀ handler,
      let next := s.step (.frame handler (AdminMessage.of .receiveAdminPassword data).bytes)
      next.1 = .ok none ∧ next.2.adminPassword = .ok password

namespace Provided

variable {s : Site} {login password : Bytes} {seed : String}

theorem store_ok (h : s.Provided login) (short : password.length ≤ Crypto.Gcm.maxLength) :
    (s.agent.handshake.vault.store password s.agent.handshake.paths.adminPassword s.host).1
      = .ok () := by
  obtain ⟨slot, hslot, hfile, hthere⟩ := h.place
  exact Vault.store_ok h.ready (CredentialPaths.admin_mem _) hslot hfile hthere h.fits short

/-- After a rotation that is accepted, the vault has the password that it brought. -/
theorem adminPassword_step (h : s.Provided login) {handler : Handler} {data : Bytes}
    (new : s.agent.handshake.newAdminPassword data s.host = .ok password)
    (hok : (s.agent.handshake.vault.store password s.agent.handshake.paths.adminPassword s.host).1
      = .ok ()) :
    (s.step (.frame handler (AdminMessage.of .receiveAdminPassword data).bytes)).2.adminPassword
      = .ok password := by
  obtain ⟨slot, hslot, hfile, hthere⟩ := h.place
  rw [Site.adminPassword_step new]
  exact Vault.load_store h.ready hslot hfile hthere hok

/-- What delivers a password is a seed with a text, and the text is the password enciphered. -/
theorem delivers_iff (h : s.Provided login) (hseed : (encode seed).length = Credential.seedLength)
    (hpassword : password ≠ []) {data : Bytes} :
    s.Delivers seed password data
      ↔ (∃ text, Handshake.payload Handshake.rotationDecoder data = .ok ⟨seed, text⟩
          ∧ encode text = Crypto.Rc4.crypt (Credential.adminPasswordKey login seed) password)
        ∧ password.length ≤ Crypto.Gcm.maxLength := by
  constructor
  · rintro ⟨⟨r, hpayload, rfl⟩, hstep⟩
    obtain ⟨accepted, hload⟩ := hstep fun _ => .error ""
    obtain ⟨stored, new, hok⟩ := step_rotation_eq_ok.1 accepted
    -- The password that is stored is the one that is loaded.
    obtain rfl := Except.ok.inj ((h.adminPassword_step new hok).symm.trans hload)
    obtain ⟨r', login', hpayload', -, -, hlogin, -, hcrypt⟩ := Handshake.newAdminPassword_eq_ok.1 new
    obtain rfl := Except.ok.inj (hpayload.symm.trans hpayload')
    obtain rfl := Except.ok.inj (h.loaded.symm.trans hlogin)
    refine ⟨⟨r.pwd, hpayload, ?_⟩, Vault.length_le_of_store hok⟩
    rw [← hcrypt, Crypto.Rc4.crypt_crypt]
  · rintro ⟨⟨text, hpayload, htext⟩, short⟩
    have hne : encode text ≠ [] := by
      intro hnil
      have hlength := Crypto.Rc4.length_crypt (Credential.adminPasswordKey login seed) password
      rw [← htext, hnil] at hlength
      exact hpassword (List.length_eq_zero_iff.1 hlength.symm)
    have hcrypt : Crypto.Rc4.crypt (Credential.adminPasswordKey login seed) (encode text) = password := by
      rw [htext, Crypto.Rc4.crypt_crypt]
    have new : s.agent.handshake.newAdminPassword data s.host = .ok password :=
      Handshake.newAdminPassword_eq_ok.2
        ⟨⟨seed, text⟩, login, hpayload, hseed, hne, h.loaded, h.length, hcrypt⟩
    refine ⟨⟨_, hpayload, rfl⟩, ?_⟩
    intro handler
    exact ⟨step_rotation_eq_ok.2 ⟨password, new, h.store_ok short⟩,
      h.adminPassword_step new (h.store_ok short)⟩

end Provided

/-! ## A site that holds a login password -/

/-- The vacant site with a login password stored. -/
def enrolled (login : Bytes) : Site where
  agent := vacant.agent
  host := (vacant.agent.handshake.vault.store login "login" vacant.host).2

theorem enrolled_provided {login : Bytes} (length : login.length = Credential.loginPasswordLength) :
    (enrolled login).Provided login := by
  obtain ⟨-, keeps⟩ := vacant_prepared.keeps.host.store_login length
  exact {
    ready := keeps.ready
    loaded := keeps.load_login
    length := length
    place := ⟨_, keeps.adminSlot, keeps.adminFile, keeps.adminHeld.ne_directory⟩
    fits := keeps.fits _ (CredentialPaths.admin_mem _) _ }

/-! ## What can be delivered -/

/-- **What can be delivered.** Take any site with a login password of 32 bytes in its vault and a place
for an administrative password, any seed of 16 bytes and any password that is not empty. If the password's
cipher text, under the seed and the login password, is the bytes of a text, and the password is no longer
than the vault can seal, there is a command with that seed that is accepted and after which the vault has
the password; otherwise there is none. Such a command brings that cipher text. -/
theorem deliverable_iff {s : Site} {login : Bytes} (provided : s.Provided login) {seed : String}
    (hseed : (encode seed).length = 16) {password : Bytes} (hpassword : password ≠ []) :
    let cipherText := Crypto.Rc4.crypt (encode seed ++ 0x3A :: login) password
    ((∃ data, s.Delivers seed password data)
        ↔ (∃ text, encode text = cipherText) ∧ password.length ≤ Crypto.Gcm.maxLength)
      ∧ ∀ data, s.Delivers seed password data →
          ∃ text, Handshake.payload Handshake.rotationDecoder data = .ok ⟨seed, text⟩
            ∧ encode text = cipherText := by
  intro cipherText
  have delivers : ∀ data, s.Delivers seed password data ↔ _ :=
    fun _ => provided.delivers_iff hseed hpassword
  refine ⟨⟨?_, ?_⟩, ?_⟩
  · rintro ⟨data, h⟩
    obtain ⟨⟨text, -, htext⟩, short⟩ := (delivers data).1 h
    exact ⟨⟨text, htext⟩, short⟩
  · rintro ⟨⟨text, htext⟩, short⟩
    exact ⟨_, (delivers _).2 ⟨⟨text, Handshake.payload_rotation seed text, htext⟩, short⟩⟩
  · intro data h
    exact ((delivers data).1 h).1

/-- A password is delivered by a text that deciphers to it. -/
theorem deliverable_iff_dummy :
    let login := encode "12345678123456781234567812345678"
    let seed := "1234567812345678"
    let password := Crypto.Rc4.crypt (encode seed ++ 0x3A :: login) (encode "dummycontent")
    (enrolled login).Provided login ∧ ∃ data, (enrolled login).Delivers seed password data := by
  intro login seed password
  have provided : (enrolled login).Provided login := enrolled_provided (by decide)
  have hlength : password.length = 12 := Crypto.Rc4.length_crypt _ _
  have hne : password ≠ [] := List.ne_nil_of_length_pos (by omega)
  have short : password.length ≤ Crypto.Gcm.maxLength := by
    rw [hlength]
    decide
  have hseed : (encode seed).length = 16 := by decide
  obtain ⟨delivered, -⟩ := deliverable_iff provided hseed hne
  refine ⟨provided, delivered.2 ⟨⟨"dummycontent", ?_⟩, short⟩⟩
  exact (Crypto.Rc4.crypt_crypt _ _).symm

/-- Some passwords cannot be delivered: one whose cipher text is not the bytes of a text, and one that is
too long to be sealed. -/
theorem deliverable_notAll :
    let login := encode "12345678123456781234567812345678"
    let seed := "1234567812345678"
    let long := List.replicate (Crypto.Gcm.maxLength + 1) 0
    (enrolled login).Provided login ∧ (encode seed).length = 16
      ∧ (¬∃ data, (enrolled login).Delivers seed (encode "admin") data)
      ∧ ¬∃ data, (enrolled login).Delivers seed long data := by
  intro login seed long
  have provided : (enrolled login).Provided login := enrolled_provided (by decide)
  have hseed : (encode seed).length = Credential.seedLength := by decide
  let cipherText : Bytes := [0x2F, 0x36, 0x62, 0x9F, 0xD3]
  have hcipher : Crypto.Rc4.crypt
      (Credential.adminPasswordKey (encode "12345678123456781234567812345678") "1234567812345678")
      (encode "admin") = cipherText := by
    have hfront : encode "admin" = (encode "admin-secret").take 5 := by decide
    rw [hfront, Crypto.Rc4.crypt_take, ← Credential.crypt_secret, Crypto.Rc4.crypt_crypt]
    rfl
  have hnone : decode? cipherText = none := by decide
  refine ⟨provided, hseed, ?_, ?_⟩
  · rintro ⟨data, h⟩
    obtain ⟨⟨text, -, htext⟩, -⟩ := (provided.delivers_iff hseed (by decide)).1 h
    rw [hcipher] at htext
    rw [← htext, Text.Utf8.decode?_encode] at hnone
    cases hnone
  · rintro ⟨data, h⟩
    have hne : long ≠ [] := List.cons_ne_nil _ _
    obtain ⟨-, short⟩ := (provided.delivers_iff hseed hne).1 h
    rw [List.length_replicate] at short
    exact absurd short (Nat.not_succ_le_self _)

end Site

end PbxAgent
