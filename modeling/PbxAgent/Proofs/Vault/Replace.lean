import PbxAgent.Proofs.Storage.Matching
import PbxAgent.Vault

/-!
# What a store does to the files

Either the temporary file cannot be made, or it cannot be written and stays
(`storeSealedWith_of_failure`), or it cannot take the target's place, or the target is replaced. By way
of a path that led nowhere (`storeSealed_of_unused`) nothing is left of a store that fails where the
writes go through, and of one that succeeds nothing but the target; under a name that was not in use at
all (`storeSealed_of_avoids`) it can be told beforehand which it will be. On trees that match a store
ends alike, and they match again (`storeSealed_matches`), whatever the names.
-/

namespace PbxAgent.Vault

open Storage (FileTree FileError Path Place Name)
open Storage.FileTree (Slot Avoids Matches IsFileName)

variable {t u : FileTree} {temporary target : Path} {p : Place} {e : FileError} {sealed : Bytes}

/-! ## The temporary file -/

theorem applyAll_append (ops ops' : List Operation) (t : FileTree) :
    applyAll (ops ++ ops') t = match applyAll ops t with
      | (.error e, u) => (.error e, u)
      | (.ok (), u) => applyAll ops' u := by
  induction ops generalizing t with
  | nil => rfl
  | cons op ops ih =>
    simp only [List.cons_append, applyAll]
    cases op.apply t with
    | error e => rfl
    | ok u => exact ih u

/-- What is written piece by piece comes behind what is there. -/
theorem append_pieces {s : Slot} (hs : t.slot temporary = .ok s) (hf : s.HoldsFile)
    (hd : t.get? s.place ≠ some .directory) (mode : Nat) (data : Bytes) (pieces : List Bytes) :
    applyAll (pieces.map (.append temporary)) (t.set s.place (.file mode data))
      = (.ok (), t.set s.place (.file mode (data ++ pieces.flatten))) := by
  induction pieces generalizing data with
  | nil =>
    rw [List.flatten_nil, List.append_nil]
    rfl
  | cons piece pieces ih =>
    have happend := FileTree.append_of_slot (FileTree.slot_set_file hd mode data hs hf) hf
      (FileTree.get?_set_self _ s.place_ne_nil) piece
    rw [FileTree.set_set] at happend
    simp only [List.map_cons, applyAll, Operation.apply, happend]
    rw [ih, List.flatten_cons, List.append_assoc]

theorem write_of_error (h : t.placeOf Slot.makeFault temporary = .error e) (pieces : List Bytes) :
    applyAll (writeOperations temporary pieces) t = (.error e, t) := by
  have hcreate := FileTree.create_of_placeOf_error h
  simp only [writeOperations, applyAll, Operation.apply, hcreate]

/-- Once there is a place for it, the temporary file gets there with all its content. -/
theorem write_of_place (h : t.placeOf Slot.makeFault temporary = .ok p) (pieces : List Bytes) :
    ∃ mode, (t.get? p = none → mode = FileTree.defaultMode)
      ∧ applyAll (writeOperations temporary pieces) t
        = (.ok (), t.set p (.file mode pieces.flatten)) := by
  obtain ⟨mode, hmode, hcreate⟩ := FileTree.create_of_placeOf h
  obtain ⟨s, hs, hf, rfl, hd⟩ := FileTree.placeOf_eq_ok Slot.makeFault_eq_none h
  have hpieces := append_pieces hs hf hd mode [] pieces
  rw [List.nil_append] at hpieces
  refine ⟨mode, hmode, ?_⟩
  simp only [writeOperations, applyAll, Operation.apply, hcreate, hpieces]

theorem writeSealed_of_error (failure : Option WriteFailure)
    (h : t.placeOf Slot.makeFault temporary = .error e) (sealed : Bytes) :
    writeSealed failure t temporary sealed = (.error e, t) := by
  cases failure with
  | none => exact write_of_error h [sealed]
  | some f =>
    unfold writeSealed
    simp only [write_of_error h]

/-- A write that fails leaves a beginning of what was to be written. -/
theorem writeSealed_of_failure (h : t.placeOf Slot.makeFault temporary = .ok p)
    (fresh : t.get? p = none) (f : WriteFailure) (sealed : Bytes) :
    writeSealed (some f) t temporary sealed
      = (.error f.cause, t.set p (.file FileTree.defaultMode (sealed.take f.taken))) := by
  obtain ⟨mode, hmode, hwrite⟩ := write_of_place h [sealed.take f.taken]
  rw [hmode fresh, List.flatten_singleton] at hwrite
  unfold writeSealed
  simp only [hwrite]

/-! ## The target -/

/-- The temporary file, once written, gets its mode; then it is up to the target whether it takes its
place. -/
theorem place_of_slot {s : Slot} (hs : t.slot temporary = .ok s) (hf : s.HoldsFile)
    (hd : t.get? s.place ≠ some .directory) (mode : Nat) (target : Path) (sealed : Bytes) :
    applyAll (placeOperations temporary target) (t.set s.place (.file mode sealed))
      = match (t.set s.place (.file fileMode sealed)).placeOf Slot.moveFault target with
        | .error e => (.error e, t.set s.place (.file fileMode sealed))
        | .ok q => (.ok (), ((t.set s.place (.file fileMode sealed)).erase s.place).set q
            (.file fileMode sealed)) := by
  have hget : ∀ e : Storage.Entry, (t.set s.place e).get? s.place = some e :=
    fun e => FileTree.get?_set_self e s.place_ne_nil
  have hslot : ∀ mode, (t.set s.place (.file mode sealed)).slot temporary = .ok s :=
    fun mode => FileTree.slot_set_file hd mode sealed hs hf
  have hmode := FileTree.setMode_of_slot (hslot mode) hf (hget _) fileMode
  have hrename : (t.set s.place (.file fileMode sealed)).rename temporary target = _ :=
    FileTree.rename_of_slot (hslot fileMode) hf (hget _)
  rw [FileTree.set_set] at hmode
  simp only [placeOperations, applyAll, Operation.apply, hmode, hrename]
  cases (t.set s.place (.file fileMode sealed)).placeOf Slot.moveFault target with
  | error e => rfl
  | ok q => rfl

theorem storeSealedWith_of_error (failure : Option WriteFailure)
    (h : t.placeOf Slot.makeFault temporary = .error e) (target : Path) (sealed : Bytes) :
    storeSealedWith failure t temporary target sealed = (.error e, t) := by
  rw [storeSealedWith, writeSealed_of_error failure h]

theorem storeSealed_of_error (h : t.placeOf Slot.makeFault temporary = .error e) (target : Path)
    (sealed : Bytes) : storeSealed t temporary target sealed = (.error e, t) :=
  storeSealedWith_of_error none h target sealed

/-- Nothing takes the file away that a write could not fill. -/
theorem storeSealedWith_of_failure (h : t.placeOf Slot.makeFault temporary = .ok p)
    (fresh : t.get? p = none) (f : WriteFailure) (target : Path) (sealed : Bytes) :
    storeSealedWith (some f) t temporary target sealed
      = (.error f.cause, t.set p (.file FileTree.defaultMode (sealed.take f.taken))) := by
  rw [storeSealedWith, writeSealed_of_failure h fresh]

theorem storeSealed_of_place (h : t.placeOf Slot.makeFault temporary = .ok p) (target : Path)
    (sealed : Bytes) :
    storeSealed t temporary target sealed
      = match (t.set p (.file fileMode sealed)).placeOf Slot.moveFault target with
        | .error e => (.error e, (t.set p (.file fileMode sealed)).erase p)
        | .ok q => (.ok (), ((t.set p (.file fileMode sealed)).erase p).set q
            (.file fileMode sealed)) := by
  obtain ⟨mode, -, hwrite⟩ := write_of_place h [sealed]
  rw [List.flatten_singleton] at hwrite
  obtain ⟨s, hs, hf, rfl, hd⟩ := FileTree.placeOf_eq_ok Slot.makeFault_eq_none h
  have hplace := place_of_slot hs hf hd mode target sealed
  -- A file that cannot take the target's place is found where it was made, to be removed.
  have hremove := FileTree.remove_of_slot (FileTree.slot_set_file hd fileMode sealed hs hf) hf
    (FileTree.get?_set_self _ s.place_ne_nil)
  rw [storeSealed, storeSealedWith, writeSealed, hwrite]
  simp only [hplace]
  cases (t.set s.place (.file fileMode sealed)).placeOf Slot.moveFault target with
  | error e => simp only [hremove]
  | ok q => rfl

/-- What a store does, however its content is cut up, is what its operations do, but that it takes away
what they leave behind when they fail. -/
theorem storeSealed_eq_applyAll (t : FileTree) (temporary target : Path) (pieces : List Bytes) :
    (storeSealed t temporary target pieces.flatten).1
        = (applyAll (storeOperations temporary target pieces) t).1
      ∧ ((applyAll (storeOperations temporary target pieces) t).1 = .ok () →
        (storeSealed t temporary target pieces.flatten).2
          = (applyAll (storeOperations temporary target pieces) t).2) := by
  rw [storeOperations, applyAll_append]
  cases h : t.placeOf Slot.makeFault temporary with
  | error e =>
    rw [storeSealed_of_error h, write_of_error h]
    exact ⟨rfl, fun _ => rfl⟩
  | ok p =>
    obtain ⟨mode, -, hwrite⟩ := write_of_place h pieces
    obtain ⟨s, hs, hf, rfl, hd⟩ := FileTree.placeOf_eq_ok Slot.makeFault_eq_none h
    rw [storeSealed_of_place h, hwrite]
    simp only [place_of_slot hs hf hd]
    cases (t.set s.place (.file fileMode pieces.flatten)).placeOf Slot.moveFault target with
    | error e => exact ⟨rfl, nofun⟩
    | ok q => exact ⟨rfl, fun _ => rfl⟩

/-! ## Trees that match -/

/-- Stores of credentials alike on trees that match end alike. -/
theorem storeSealed_matches {R : Bytes → Bytes → Prop} (h : Matches R t u) {sealed' : Bytes}
    (hR : R sealed sealed') (temporary target : Path) :
    (storeSealed t temporary target sealed).1 = (storeSealed u temporary target sealed').1
      ∧ Matches R (storeSealed t temporary target sealed).2
          (storeSealed u temporary target sealed').2 := by
  have hfile : Storage.Entry.Matches R (.file fileMode sealed) (.file fileMode sealed') := .file hR
  have hplace := h.placeOf_eq Slot.makeFault temporary
  cases hp : u.placeOf Slot.makeFault temporary with
  | error e =>
    rw [hp] at hplace
    rw [storeSealed_of_error hplace, storeSealed_of_error hp]
    exact ⟨rfl, h⟩
  | ok p =>
    rw [hp] at hplace
    have hset := h.set p hfile
    rw [storeSealed_of_place hplace, storeSealed_of_place hp, hset.placeOf_eq]
    cases (u.set p (.file fileMode sealed')).placeOf Slot.moveFault target with
    | error e => exact ⟨rfl, hset.erase p⟩
    | ok q => exact ⟨rfl, (hset.erase p).set q hfile⟩

/-! ## Names that were not in use -/

/-- There is nothing yet in the place of a file at a path that led nowhere. -/
theorem get?_of_unused (unused : ∀ e, t.lookup temporary ≠ .ok e)
    (h : t.placeOf Slot.makeFault temporary = .ok p) : t.get? p = none := by
  obtain ⟨s, hs, hf, rfl, -⟩ := FileTree.placeOf_eq_ok Slot.makeFault_eq_none h
  rw [Option.eq_none_iff_forall_ne_some]
  intro e hget
  refine unused e ?_
  rw [FileTree.lookup_of_slot hs hf, hget]

/-- A store by way of a path that led nowhere fails and leaves the files, or replaces the target and
nothing else. -/
theorem storeSealed_of_unused (unused : ∀ e, t.lookup temporary ≠ .ok e) (target : Path)
    (sealed : Bytes) :
    (∃ e, storeSealed t temporary target sealed = (.error e, t))
      ∨ ∃ q, t.placeOf Slot.moveFault target = .ok q
        ∧ storeSealed t temporary target sealed = (.ok (), t.set q (.file fileMode sealed)) := by
  cases hp : t.placeOf Slot.makeFault temporary with
  | error e => exact .inl ⟨e, storeSealed_of_error hp target sealed⟩
  | ok p =>
    have hnone := get?_of_unused unused hp
    obtain ⟨s, hs, hf, rfl, hd⟩ := FileTree.placeOf_eq_ok Slot.makeFault_eq_none hp
    have hstored := storeSealed_of_place hp target sealed
    rw [FileTree.erase_set s.place_ne_nil hnone] at hstored
    cases hq : (t.set s.place (.file fileMode sealed)).placeOf Slot.moveFault target with
    | error e =>
      rw [hq] at hstored
      exact .inl ⟨e, hstored⟩
    | ok q =>
      rw [hq] at hstored
      have hbefore := (FileTree.SameDirectories.set_file hd fileMode sealed).symm.placeOf
        Slot.moveFault_eq_none hq
      exact .inr ⟨q, hbefore, hstored⟩

/-- A store by way of a name that was not in use changes nothing but the target, and that only if it
succeeds. -/
theorem storeSealed_of_avoids {n : Name} {before : List Name} (h : t.Avoids n) (hn : IsFileName n)
    (hseg : Path.segments temporary = before ++ [n]) (htarget : n ∉ Path.segments target)
    (sealed : Bytes) :
    storeSealed t temporary target sealed
      = match t.slotIn before n false temporary with
        | .error e => (.error e, t)
        | .ok _ =>
          match t.placeOf Slot.moveFault target with
          | .error e => (.error e, t)
          | .ok q => (.ok (), t.set q (.file fileMode sealed)) := by
  have hplace := h.placeOf_last Slot.makeFault_eq_none hn hseg
  cases hs : t.slotIn before n false temporary with
  | error e =>
    rw [hs] at hplace
    exact storeSealed_of_error hplace target sealed
  | ok s =>
    have hmem : n ∈ s.place := by
      obtain ⟨-, -, -, hname, -⟩ := FileTree.slotIn_eq_ok hs
      rw [← hname]
      exact List.mem_append_right _ List.mem_cons_self
    rw [hs] at hplace
    rw [storeSealed_of_place hplace, h.placeOf_set Slot.moveFault_eq_none hmem _ htarget,
      FileTree.erase_set s.place_ne_nil (h.get?_eq_none hmem)]

end PbxAgent.Vault
