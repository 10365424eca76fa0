import PbxAgent.Proofs.Vault.Store

/-!
# Hosts with the same credentials

Nonces and temporary names differ from run to run. Neither can be told from what stores and loads
give: hosts that hold the same credentials go on to do so (`Bisimulation`), if their stores have the
same numbers (`sameStores_bisimulation`) or temporary names are for stores alone
(`interchangeable_bisimulation`).
-/

namespace PbxAgent

open Storage (FileTree Path)
open Storage.FileTree (Slot Matches)
open Text.Utf8 (encode)

namespace Vault

variable {v : Vault} {paths : List String} {g g' : Host}

/-- A relation of hosts that stores at some paths keep, each by a vault of its own, and under which
stores and loads at these paths give the same. -/
structure Correspondence (v v' : Vault) (paths : List String) (Rel : Host → Host → Prop) : Prop where
  load : ∀ {g g'}, Rel g g' → ∀ path ∈ paths, v.load path g.files = v'.load path g'.files
  store : ∀ {g g'}, Rel g g' → ∀ {path}, path ∈ paths → ∀ p,
    (v.store p path g).1 = (v'.store p path g').1 ∧ Rel (v.store p path g).2 (v'.store p path g').2

/-- A relation of hosts that stores at some paths keep, and under which stores and loads give the
same. -/
structure Bisimulation (v : Vault) (paths : List String) (Rel : Host → Host → Prop) : Prop where
  load : ∀ {g g'}, Rel g g' → ∀ path, v.load path g.files = v.load path g'.files
  store : ∀ {g g'}, Rel g g' → ∀ {path}, path ∈ paths → ∀ p,
    (v.store p path g).1 = (v.store p path g').1 ∧ Rel (v.store p path g).2 (v.store p path g').2

theorem Bisimulation.correspondence {Rel : Host → Host → Prop} (b : v.Bisimulation paths Rel) :
    v.Correspondence v paths Rel where
  load h path _ := b.load h path
  store h _ hpath p := b.store h hpath p

/-- Trees with the same credentials give the same when they are loaded. -/
theorem load_matches {t u : FileTree} (h : Matches v.OpensAlike t u) (path : String) :
    v.load path t = v.load path u := by
  unfold load
  rcases h.lookup (encode path) with ⟨e, ht, hu⟩ | ⟨x, y, ht, hu, hxy⟩
  · rw [ht, hu]
  · rw [ht, hu]
    cases hxy with
    | directory => rfl
    | file content => exact content path

/-! ## Stores of the same numbers -/

/-- Stores of the same number on two hosts end alike, each by a vault of its own, if stores of what
opens alike do. -/
theorem store_alike (v' : Vault) {Rel : FileTree → FileTree → Prop}
    (sealing : ∀ {t u sealed sealed'}, Rel t u →
      (∀ origin, v.openSealed sealed origin = v'.openSealed sealed' origin) → ∀ temporary target,
        (storeSealed t temporary target sealed).1 = (storeSealed u temporary target sealed').1
          ∧ Rel (storeSealed t temporary target sealed).2 (storeSealed u temporary target sealed').2)
    (files : Rel g.files g'.files) (process : g.process = g'.process) (stores : g.stores = g'.stores)
    (p : Bytes) (path : String) :
    (v.store p path g).1 = (v'.store p path g').1
      ∧ Rel (v.store p path g).2.files (v'.store p path g').2.files
      ∧ (v.store p path g).2.process = (v'.store p path g').2.process
      ∧ (v.store p path g).2.stores = (v'.store p path g').2.stores := by
  cases hseal : v.seal? (g.nonces g.drawn) p with
  | none =>
    have hseal' : v'.seal? (g'.nonces g'.drawn) p = none :=
      seal?_eq_none_iff.2 (seal?_eq_none_iff.1 hseal)
    rw [store_of_seal?_none hseal, store_of_seal?_none hseal']
    exact ⟨rfl, files, process, stores⟩
  | some sealed =>
    obtain ⟨sealed', hseal'⟩ := seal?_of_seal? hseal v' (g'.nonces g'.drawn)
    have opens : ∀ origin, v.openSealed sealed origin = v'.openSealed sealed' origin := by
      intro origin
      rw [openSealed_of_seal? hseal, openSealed_of_seal? hseal']
    obtain ⟨hresult, hfiles⟩ := sealing files opens (temporaryPath (encode path) g.process g.stores)
      (encode path)
    rw [store_of_seal? hseal, store_of_seal? hseal', ← process, ← stores]
    exact ⟨by rw [hresult], hfiles, rfl, rfl⟩

/-- Hosts with the same credentials where the next store has the same number. -/
structure SameStores (v : Vault) (g g' : Host) : Prop where
  files : Matches v.OpensAlike g.files g'.files
  process : g.process = g'.process
  stores : g.stores = g'.stores

theorem SameStores.store (h : SameStores v g g') (p : Bytes) (path : String) :
    (v.store p path g).1 = (v.store p path g').1
      ∧ SameStores v (v.store p path g).2 (v.store p path g').2 := by
  obtain ⟨hresult, files, process, stores⟩ :=
    store_alike v (fun ht opens => storeSealed_matches ht opens) h.files h.process h.stores p path
  exact ⟨hresult, files, process, stores⟩

/-- Whatever the nonces. -/
theorem sameStores_bisimulation (v : Vault) (paths : List String) :
    v.Bisimulation paths (SameStores v) where
  load h path := load_matches h.files path
  store h path _ p := h.store p path

/-! ## Stores under names of their own -/

/-- Whether the system takes the temporary files of a path does not depend on their number. -/
def Even (process : UInt32) (paths : List String) : Prop :=
  ∀ path ∈ paths, ∀ m n, FileTree.checkPath (temporaryPath (encode path) process m)
    = FileTree.checkPath (temporaryPath (encode path) process n)

/-- Hosts with the same credentials, both ready. -/
structure Interchangeable (v : Vault) (paths : List String) (g g' : Host) : Prop where
  files : Matches v.OpensAlike g.files g'.files
  process : g.process = g'.process
  even : Even g.process paths
  left : g.Ready paths
  right : g'.Ready paths

/-- The two temporary files have different names, but in one directory. -/
theorem Interchangeable.matches_store (h : Interchangeable v paths g g') {path : String}
    (hpath : path ∈ paths) (p : Bytes) :
    (v.store p path g).1 = (v.store p path g').1
      ∧ Matches v.OpensAlike (v.store p path g).2.files (v.store p path g').2.files := by
  cases hseal : v.seal? (g.nonces g.drawn) p with
  | none =>
    have hseal' : v.seal? (g'.nonces g'.drawn) p = none :=
      seal?_eq_none_iff.2 (seal?_eq_none_iff.1 hseal)
    rw [store_of_seal?_none hseal, store_of_seal?_none hseal']
    exact ⟨rfl, h.files⟩
  | some sealed =>
    obtain ⟨sealed', hseal'⟩ := seal?_of_seal? hseal v (g'.nonces g'.drawn)
    obtain ⟨before, -, hseg⟩ := segments_temporaryPath (encode path)
    have habs : Path.isAbsolute (temporaryPath (encode path) g.process g.stores)
        = Path.isAbsolute (temporaryPath (encode path) g.process g'.stores) := by
      rw [isAbsolute_temporaryPath, isAbsolute_temporaryPath]
    rw [store_of_seal? hseal, store_of_seal? hseal', storeSealed_of_ready h.left hpath hseg,
      storeSealed_of_ready h.right hpath hseg, ← h.files.slotIn_eq, ← h.files.placeOf_eq, ← h.process]
    -- Either temporary file can be made if the other can: they go to one directory.
    rcases FileTree.slotIn_alike (h.even path hpath g.stores g'.stores) habs false with
      ⟨e, hs, hs'⟩ | ⟨s, s', hs, hs'⟩
    · rw [hs, hs']
      exact ⟨rfl, h.files⟩
    · rw [hs, hs']
      cases g.files.placeOf Slot.moveFault (encode path) with
      | error e => exact ⟨rfl, h.files⟩
      | ok q => exact ⟨rfl, h.files.set q (.file (opensAlike_of_seal? hseal hseal'))⟩

/-- Whatever the nonces and the numbers of the stores. -/
theorem interchangeable_bisimulation (v : Vault) (paths : List String) :
    v.Bisimulation paths (Interchangeable v paths) where
  load h path := load_matches h.files path
  store h path hpath p := by
    obtain ⟨hresult, hfiles⟩ := h.matches_store hpath p
    refine ⟨hresult, hfiles, ?_, ?_, ready_store h.left hpath v p, ready_store h.right hpath v p⟩
    · rw [process_store, process_store, h.process]
    · rw [process_store]
      exact h.even

end Vault

end PbxAgent
