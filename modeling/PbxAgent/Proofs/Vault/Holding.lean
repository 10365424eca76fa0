import PbxAgent.Proofs.Vault.Store

/-!
# Passwords in their places

A place that holds a password holds it sealed, and whatever its nonce it is loaded as it was stored
(`Holds.load`, `load_store`). Storing another password in another place leaves it (`Holds.set_ne`).
-/

namespace PbxAgent.Vault

open Storage (FileTree Path Place)
open Storage.FileTree (Slot)
open Text.Utf8 (encode)

/-- Whether a place holds a password, sealed, or nothing if there is none. -/
def Holds (v : Vault) (t : FileTree) (p : Place) : Option Bytes → Prop
  | none => t.get? p = none
  | some password =>
    ∃ sealed, t.get? p = some (.file fileMode sealed)
      ∧ ∀ origin, v.openSealed sealed origin = .ok password

/-- What is loaded from a place that holds a password or nothing. -/
def loaded (path : String) : Option Bytes → Except CredentialError Bytes
  | none => .error (.read path .notFound)
  | some password => .ok password

theorem loaded_eq_ok {path : String} {c : Option Bytes} {password : Bytes} :
    loaded path c = .ok password ↔ c = some password := by
  cases c <;> simp [loaded]

variable {v : Vault} {t : FileTree} {p q : Place} {c : Option Bytes} {sealed password : Bytes}

theorem Holds.ne_directory (h : v.Holds t p c) : t.get? p ≠ some .directory := by
  cases c with
  | none =>
    have hnone : t.get? p = none := h
    rw [hnone]
    intro heq
    cases heq
  | some password =>
    obtain ⟨sealed, hget, -⟩ := h
    rw [hget]
    intro heq
    cases heq

theorem Holds.congr {u : FileTree} (h : v.Holds t p c) (hget : u.get? p = t.get? p) :
    v.Holds u p c := by
  unfold Holds at h ⊢
  rw [hget]
  exact h

theorem Holds.set_ne (h : v.Holds t p c) (hp : p ≠ q) (e : Storage.Entry) :
    v.Holds (t.set q e) p c :=
  h.congr (FileTree.get?_set_ne e hp)

theorem holds_set_self (hp : p ≠ []) (opens : ∀ origin, v.openSealed sealed origin = .ok password) :
    v.Holds (t.set p (.file fileMode sealed)) p (some password) :=
  ⟨sealed, FileTree.get?_set_self _ hp, opens⟩

theorem Holds.load_of_goal? {path : String} (h : v.Holds t p c)
    (goal : t.goal? (encode path) = some p) : v.load path t = loaded path c := by
  have hlookup := FileTree.lookup_of_goal? goal
  cases c with
  | none =>
    have hnone : t.get? p = none := h
    rw [hnone] at hlookup
    rw [Vault.load, hlookup]
    rfl
  | some password =>
    obtain ⟨sealed, hget, opens⟩ := h
    rw [hget] at hlookup
    rw [Vault.load, hlookup]
    exact opens path

theorem Holds.load {s : Slot} {path : String} (h : v.Holds t s.place c)
    (hs : t.slot (encode path) = .ok s) (hf : s.HoldsFile) : v.load path t = loaded path c :=
  h.load_of_goal? (FileTree.goal?_of_slot hs hf)

/-- What has been stored is loaded. -/
theorem load_store {g : Host} {paths : List String} (ready : g.Ready paths) {s : Slot} {path : String}
    (hs : g.files.slot (encode path) = .ok s) (hf : s.HoldsFile)
    (hd : g.files.get? s.place ≠ some .directory) (hok : (v.store password path g).1 = .ok ()) :
    v.load path (v.store password path g).2.files = .ok password := by
  obtain ⟨sealed, opens, files⟩ := store_slot ready hs hok
  rw [files]
  exact (holds_set_self s.place_ne_nil opens).load (FileTree.slot_set_file hd fileMode sealed hs hf) hf

end PbxAgent.Vault
