import PbxAgent.Proofs.Vault.Holding

/-!
# Stores that fail

A store changes the place of its path or nothing at all, with one exception: where the file beside the
target can be made and the write to it fails, that file stays (`storeWith_all_or_nothing`). The store
gives up there without the clean-up that it does when the file cannot take the target's place.
-/

namespace PbxAgent.Vault

open Storage (FileTree Path Place)
open Storage.FileTree (Slot)
open Text.Utf8 (encode)

variable {v : Vault} {p sealed : Bytes} {path : String} {h h' : Host} {q : Place}

/-- What a store that succeeds has done: the path leads to a file for the owner alone, from which the
vault loads the password, and all else is as it was. -/
structure Replaced (v : Vault) (p : Bytes) (path : String) (h h' : Host) : Prop where
  loads : v.load path h'.files = .ok p
  place : ∃ q sealed, h'.files.locate (encode path) = .ok q
    ∧ h'.files.get? q = some (.file 0o600 sealed)
    ∧ ∀ other, other ≠ q → h'.files.get? other = h.files.get? other
  workingDirectory : h'.files.workingDirectory = h.files.workingDirectory

/-- What a store whose write failed has done: the temporary path leads to a file that was not there,
for all to read and with a beginning of the sealed password, and all else is as it was. -/
structure Littered (v : Vault) (p : Bytes) (path : String) (f : WriteFailure) (h h' : Host) :
    Prop where
  place : ∃ q sealed, v.seal? (h.nonces h.drawn) p = some sealed
    ∧ h.files.get? q = none
    ∧ h'.files.locate (temporaryPath (encode path) h.process h.stores) = .ok q
    ∧ h'.files.get? q = some (.file 0o644 (sealed.take f.taken))
    ∧ ∀ other, other ≠ q → h'.files.get? other = h.files.get? other
  workingDirectory : h'.files.workingDirectory = h.files.workingDirectory

theorem Stored.replaced (hstored : Stored v p path h (.ok ()) h') : Replaced v p path h h' := by
  cases hstored with
  | @stored q sealed _ place opens files =>
    obtain ⟨s, hs, hf, rfl, hd⟩ := FileTree.placeOf_eq_ok Slot.moveFault_eq_none place
    have hslot : h'.files.slot (encode path) = .ok s := by
      rw [files]
      exact FileTree.slot_set_file hd fileMode sealed hs hf
    have hget : h'.files.get? s.place = some (.file fileMode sealed) := by
      rw [files]
      exact FileTree.get?_set_self _ s.place_ne_nil
    have holds : v.Holds h'.files s.place (some p) := ⟨sealed, hget, opens⟩
    refine ⟨holds.load hslot hf, ?_, ?_⟩
    · refine ⟨s.place, sealed, FileTree.locate_of_file hslot hf hget, hget, ?_⟩
      intro other hne
      rw [files]
      exact FileTree.get?_set_ne _ hne
    · rw [files]
      rfl

/-- Nothing takes the temporary file away when the write to it fails. -/
theorem littered_of_failure
    (unused : ∀ e, h.files.lookup (temporaryPath (encode path) h.process h.stores) ≠ .ok e)
    (hseal : v.seal? (h.nonces h.drawn) p = some sealed)
    (made : h.files.placeOf Slot.makeFault (temporaryPath (encode path) h.process h.stores) = .ok q)
    (f : WriteFailure) :
    (v.storeWith (some f) p path h).1 = .error (.write path f.cause)
      ∧ Littered v p path f h (v.storeWith (some f) p path h).2 := by
  have hnone := get?_of_unused unused made
  obtain ⟨s, hs, hf, rfl, hd⟩ := FileTree.placeOf_eq_ok Slot.makeFault_eq_none made
  rw [storeWith_of_seal? (some f) hseal, storeSealedWith_of_failure made hnone]
  have hget := FileTree.get?_set_self (t := h.files)
    (.file FileTree.defaultMode (sealed.take f.taken)) s.place_ne_nil
  refine ⟨rfl, ⟨s.place, sealed, hseal, hnone, ?_, hget, ?_⟩, rfl⟩
  · exact FileTree.locate_of_file (FileTree.slot_set_file hd _ _ hs hf) hf hget
  · intro other hne
    exact FileTree.get?_set_ne _ hne

/-- **A store is all or nothing, but for a write that fails.** Whatever the files and whatever the
path, as long as the temporary path leads nowhere: a store that succeeds has put the password in the
place of its path and changed nothing else; a store that fails leaves the files as they were, unless it
could make the file beside the target and the write to it failed, and then leaves that file. -/
theorem storeWith_all_or_nothing (failure : Option WriteFailure) (v : Vault) (p : Bytes)
    (path : String) (h : Host)
    (unused : ∀ e, h.files.lookup (temporaryPath (encode path) h.process h.stores) ≠ .ok e) :
    ∃ result h', v.storeWith failure p path h = (result, h') ∧ match result with
      | .ok () => failure = none ∧ Replaced v p path h h'
      | .error e =>
        (h'.files = h.files ∧ (failure = none ∨ e = .encrypt
            ∨ ∃ cause, e = .write path cause
              ∧ h.files.create (temporaryPath (encode path) h.process h.stores) = .error cause))
          ∨ ∃ f, failure = some f ∧ e = .write path f.cause ∧ Littered v p path f h h' := by
  cases failure with
  | none =>
    have hstored : Stored v p path h (v.store p path h).1 (v.store p path h).2 :=
      store_of_unused unused
    refine ⟨(v.store p path h).1, (v.store p path h).2, rfl, ?_⟩
    generalize v.store p path h = r at hstored ⊢
    obtain ⟨result, h'⟩ := r
    cases hstored with
    | failed files => exact .inl ⟨files, .inl rfl⟩
    | stored place opens files => exact ⟨rfl, (Stored.stored place opens files).replaced⟩
  | some f =>
    cases hseal : v.seal? (h.nonces h.drawn) p with
    | none =>
      rw [storeWith_of_seal?_none (some f) hseal]
      exact ⟨_, _, rfl, .inl ⟨rfl, .inr (.inl rfl)⟩⟩
    | some sealed =>
      cases made : h.files.placeOf Slot.makeFault
        (temporaryPath (encode path) h.process h.stores) with
      | error cause =>
        rw [storeWith_of_seal? (some f) hseal, storeSealedWith_of_error (some f) made]
        refine ⟨_, _, rfl, .inl ⟨rfl, .inr (.inr ⟨cause, rfl, ?_⟩)⟩⟩
        exact FileTree.create_of_placeOf_error made
      | ok q =>
        obtain ⟨hresult, littered⟩ := littered_of_failure unused hseal made f
        generalize v.storeWith (some f) p path h = r at hresult littered
        obtain ⟨result, h'⟩ := r
        cases hresult
        exact ⟨_, h', rfl, .inr ⟨f, rfl, rfl, littered⟩⟩

/-- A host with a file of another's under the name of the target. -/
def occupied : Host where
  files := { entries := [([encode "login"], .file 0o644 [])] }
  nonces := fun _ => Vector.replicate 12 0

theorem occupied_ready : occupied.Ready ["login"] :=
  Host.ready_of_dotless (by decide) (by decide)

theorem occupied_store_ok (v : Vault) : (v.store (encode "secret") "login" occupied).1 = .ok () := by
  have hseg : Path.segments (encode "login") = [encode "login"] := by decide
  have hslot : occupied.files.slot (encode "login") = .ok ⟨[], encode "login", false⟩ := rfl
  exact store_ok occupied_ready List.mem_cons_self hslot (by decide) nofun
    (checkPath_temporaryPath _ _ hseg) (by decide)

/-- A password is stored in the place of a file that was there for all to read. -/
theorem storeWith_all_or_nothing_occupied :
    (∀ e, occupied.files.lookup
        (temporaryPath (encode "login") occupied.process occupied.stores) ≠ .ok e)
      ∧ ∀ v : Vault, v.load "login" (v.storeWith none (encode "secret") "login" occupied).2.files
        = .ok (encode "secret") := by
  have unused := lookup_temporaryPath_ne_ok occupied_ready "login"
  refine ⟨unused, ?_⟩
  intro v
  have hok : (v.storeWith none (encode "secret") "login" occupied).1 = .ok () := occupied_store_ok v
  obtain ⟨result, h', hstore, hdone⟩ :=
    storeWith_all_or_nothing none v (encode "secret") "login" occupied unused
  rw [hstore] at hok ⊢
  cases hok
  exact hdone.2.loads

/-- On a full disk a store fails and leaves an empty file beside its target. -/
theorem storeWith_notAllOrNothing :
    let v := ofSecret (encode "key")
    let temporary := temporaryPath (encode "login") occupied.process occupied.stores
    let stored := v.storeWith (some ⟨0, .noSpace⟩) (encode "secret") "login" occupied
    (∀ e, occupied.files.lookup temporary ≠ .ok e)
      ∧ stored.1 = .error (.write "login" .noSpace)
      ∧ stored.2.files.lookup temporary = .ok (.file 0o644 []) := by
  intro v temporary stored
  have unused := lookup_temporaryPath_ne_ok occupied_ready "login"
  obtain ⟨sealed, hseal⟩ := seal?_of_le (v := v) (p := encode "secret") (by decide)
    (occupied.nonces occupied.drawn)
  have hseg : Path.segments (encode "login") = [encode "login"] := by decide
  have free : occupied.files.get? [temporaryName occupied.process occupied.stores]
      ≠ some .directory := by
    rw [(occupied_ready.unused _).get?_eq_none List.mem_cons_self]
    exact nofun
  have made := placeOf_temporaryPath_bare hseg rfl occupied.process occupied.stores free
  obtain ⟨hresult, ⟨q, sealed, -, -, hlocate, hget, -⟩, -⟩ :=
    littered_of_failure unused hseal made ⟨0, .noSpace⟩
  exact ⟨unused, hresult, FileTree.lookup_eq_ok.2 ⟨q, hlocate, hget⟩⟩

end PbxAgent.Vault
