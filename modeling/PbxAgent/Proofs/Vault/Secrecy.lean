import PbxAgent.Proofs.Vault.Bisimulation

/-!
# Credentials under different secrets

What is sealed by different vaults looks different, and each opens its own. Hosts that hold the same
credentials, each sealed by the vault of its own, go on to do so through stores
(`concealed_correspondence`): no file that a path of the vault leads to was there before the first
store, and whatever leads to one later leads to one that was stored.
-/

namespace PbxAgent.Vault

open Storage (FileTree FileError Path Place Entry)
open Storage.FileTree (Slot Matches)
open Text.Utf8 (encode)

/-! ## Trees -/

/-- Trees alike up to contents. Files that some paths lead to open alike, each to a vault of its
own. -/
structure HeldAlike (v v' : Vault) (paths : List String) (t u : FileTree) : Prop where
  shape : Matches (fun _ _ => True) t u
  opens : ∀ path ∈ paths, ∀ p mode data data', t.locate (encode path) = .ok p →
    t.get? p = some (.file mode data) → u.get? p = some (.file mode data') →
    ∀ origin, v.openSealed data origin = v'.openSealed data' origin

variable {v v' : Vault} {paths : List String} {t u : FileTree}

/-- Where no path leads to a file, vaults hold nothing, and so the same. -/
theorem heldAlike_of_vacant
    (vacant : ∀ path ∈ paths, ∀ mode data, t.lookup (encode path) ≠ .ok (.file mode data)) :
    HeldAlike v v' paths t t where
  shape := .refl (fun _ => trivial) t
  opens path hpath p mode data _ hlocate hget :=
    absurd (FileTree.lookup_eq_ok.2 ⟨p, hlocate, hget⟩) (vacant path hpath mode data)

namespace HeldAlike

theorem load (h : HeldAlike v v' paths t u) {path : String} (hpath : path ∈ paths) :
    v.load path t = v'.load path u := by
  unfold Vault.load
  rcases h.shape.lookup (encode path) with ⟨e, ht, hu⟩ | ⟨x, y, ht, hu, hxy⟩
  · rw [ht, hu]
  · rw [ht, hu]
    cases hxy with
    | directory => rfl
    | @file mode data data' =>
      obtain ⟨p, hlocate, hget⟩ := FileTree.lookup_eq_ok.1 ht
      obtain ⟨p', hlocate', hget'⟩ := FileTree.lookup_eq_ok.1 hu
      rw [← h.shape.locate_eq, hlocate] at hlocate'
      cases hlocate'
      exact h.opens path hpath p mode data data' hlocate hget hget' path

/-- Files that open alike may be put where there was no directory. -/
theorem set (h : HeldAlike v v' paths t u) {r : Place} (hr : t.get? r ≠ some .directory) (mode : Nat)
    {data data' : Bytes} (opens : ∀ origin, v.openSealed data origin = v'.openSealed data' origin) :
    HeldAlike v v' paths (t.set r (.file mode data)) (u.set r (.file mode data')) where
  shape := h.shape.set r (.file trivial)
  opens path hpath p m d d' hlocate hget hget' := by
    have hne := FileTree.ne_nil_of_get? hr
    rcases t.get?_set_dichotomy (.file mode data) hne p with ⟨rfl, hp⟩ | ⟨hpr, hp⟩
    · rw [hp] at hget
      rw [FileTree.get?_set_self _ hne] at hget'
      cases hget
      cases hget'
      exact opens
    · rw [hp] at hget
      rw [FileTree.get?_set_ne _ hpr] at hget'
      have hbefore := (FileTree.SameDirectories.set_file hr mode data).symm.locate hlocate
        (by rw [hget]; exact Option.some_ne_none _)
      exact h.opens path hpath p m d d' hbefore hget hget'

/-- A file may be taken away. -/
theorem erase (h : HeldAlike v v' paths t u) {r : Place} (hr : t.get? r ≠ some .directory) :
    HeldAlike v v' paths (t.erase r) (u.erase r) where
  shape := h.shape.erase r
  opens path hpath p m d d' hlocate hget hget' := by
    have hpr : p ≠ r := by
      rintro rfl
      rw [FileTree.get?_erase_self (FileTree.ne_nil_of_get? hr)] at hget
      cases hget
    rw [FileTree.get?_erase_ne hpr] at hget hget'
    have hbefore := (FileTree.SameDirectories.erase hr).symm.locate hlocate
      (by rw [hget]; exact Option.some_ne_none _)
    exact h.opens path hpath p m d d' hbefore hget hget'

/-- Stores of what opens alike end alike. -/
theorem storeSealed (h : HeldAlike v v' paths t u) {sealed sealed' : Bytes}
    (opens : ∀ origin, v.openSealed sealed origin = v'.openSealed sealed' origin)
    (temporary target : Path) :
    (storeSealed t temporary target sealed).1 = (storeSealed u temporary target sealed').1
      ∧ HeldAlike v v' paths (storeSealed t temporary target sealed).2
          (storeSealed u temporary target sealed').2 := by
  have hplace := h.shape.placeOf_eq Slot.makeFault temporary
  cases hp : t.placeOf Slot.makeFault temporary with
  | error e =>
    rw [hp] at hplace
    rw [storeSealed_of_error hp, storeSealed_of_error hplace.symm]
    exact ⟨rfl, h⟩
  | ok p =>
    rw [hp] at hplace
    obtain ⟨s, -, -, rfl, hd⟩ := FileTree.placeOf_eq_ok Slot.makeFault_eq_none hp
    have written := h.set hd fileMode opens
    have hfile : (t.set s.place (.file fileMode sealed)).get? s.place ≠ some .directory := by
      rw [FileTree.get?_set_self _ s.place_ne_nil]
      nofun
    have cleaned := written.erase hfile
    rw [storeSealed_of_place hp, storeSealed_of_place hplace.symm, ← written.shape.placeOf_eq]
    cases hq : (t.set s.place (.file fileMode sealed)).placeOf Slot.moveFault target with
    | error e => exact ⟨rfl, cleaned⟩
    | ok q =>
      obtain ⟨-, -, -, -, hdq⟩ := FileTree.placeOf_eq_ok Slot.moveFault_eq_none hq
      refine ⟨rfl, cleaned.set ?_ fileMode opens⟩
      intro hdir
      exact hdq (FileTree.get?_of_erase hdir)

end HeldAlike

/-! ## Hosts -/

/-- Hosts with the same credentials, each under a vault of its own, where the next store has the same
number. -/
structure Concealed (v v' : Vault) (paths : List String) (g g' : Host) : Prop where
  files : HeldAlike v v' paths g.files g'.files
  process : g.process = g'.process
  stores : g.stores = g'.stores

theorem Concealed.store {g g' : Host} (h : Concealed v v' paths g g') (p : Bytes) (path : String) :
    (v.store p path g).1 = (v'.store p path g').1
      ∧ Concealed v v' paths (v.store p path g).2 (v'.store p path g').2 := by
  obtain ⟨hresult, files, process, stores⟩ :=
    store_alike v' (fun ht opens => ht.storeSealed opens) h.files h.process h.stores p path
  exact ⟨hresult, files, process, stores⟩

/-- Whatever the secrets and the nonces. -/
theorem concealed_correspondence (v v' : Vault) (paths : List String) :
    v.Correspondence v' paths (Concealed v v' paths) where
  load h _ hpath := h.files.load hpath
  store h path _ p := h.store p path

end PbxAgent.Vault
