import PbxAgent.Proofs.Vault.Replace
import PbxAgent.Proofs.Vault.Sealing
import PbxAgent.Proofs.Vault.Temporary

/-!
# Storing and loading

What a store does to a host, case by case (`Stored`), where temporary names are not used for anything
else (`Ready`), and where it succeeds (`store_ok`).
-/

namespace PbxAgent

open Storage (FileTree FileError Path Place)
open Storage.FileTree (Slot)
open Text.Utf8 (encode)

/-! ## Hosts that are ready for stores -/

/-- Temporary names are for stores alone: nothing on the host has one, nor is any of the paths made
with one. -/
structure Host.Ready (g : Host) (paths : List String) : Prop where
  unused : ∀ n, g.files.Avoids (Vault.temporaryName g.process n)
  apart : ∀ path ∈ paths, ∀ n, Vault.temporaryName g.process n ∉ Path.segments (encode path)

/-- Temporary names have a dot in front, and it is enough that no other name has. -/
theorem Host.ready_of_dotless {g : Host} {paths : List String}
    (files : ∀ n ∈ g.files.workingDirectory ++ g.files.entries.flatMap Prod.fst,
      n.head? ≠ some 0x2E)
    (dotless : ∀ path ∈ paths, ∀ n ∈ Path.segments (encode path), n.head? ≠ some 0x2E) :
    g.Ready paths where
  unused n := by
    have hname := Vault.head?_temporaryName g.process n
    refine ⟨?_, ?_⟩
    · intro hmem
      exact files _ (List.mem_append_left _ hmem) hname
    · intro x hx hmem
      exact files _ (List.mem_append_right _ (List.mem_flatMap.2 ⟨x, hx, hmem⟩)) hname
  apart path hpath n hmem := dotless path hpath _ hmem (Vault.head?_temporaryName g.process n)

theorem Host.Ready.congr {g g' : Host} {paths : List String} (h : g.Ready paths)
    (files : g'.files = g.files) (process : g'.process = g.process) : g'.Ready paths where
  unused := by
    rw [files, process]
    exact h.unused
  apart := by
    rw [process]
    exact h.apart

namespace Vault

variable {v : Vault} {p sealed : Bytes} {path : String} {g g' : Host} {paths : List String}

/-- The temporary file of a bare name goes to the working directory. -/
theorem placeOf_temporaryPath_bare {t : FileTree} {target : Path} {n : Bytes}
    (hseg : Path.segments target = [n]) (hd : t.get? t.workingDirectory = some .directory)
    (process : UInt32) (store : UInt64)
    (free : t.get? (t.workingDirectory ++ [temporaryName process store]) ≠ some .directory) :
    t.placeOf Slot.makeFault (temporaryPath target process store)
      = .ok (t.workingDirectory ++ [temporaryName process store]) := by
  have hname := isFileName_temporaryName process store
  have hslash := slash_not_mem_temporaryName process store
  have hcheck := checkPath_temporaryPath process store hseg
  rw [temporaryPath_of_bare process store hseg (by simp)] at hcheck ⊢
  have hdot : ∀ i ∈ [Path.dot], Path.isIdle i = true := by decide
  have htemporary : Path.segments (Path.dot ++ Path.slash :: temporaryName process store)
      = [Path.dot] ++ [temporaryName process store] := by
    rw [Path.segments_append_slash, Path.segments_of_not_mem hslash]
    rfl
  have hslot := FileTree.slot_of_segments (t := t) htemporary hname.ne_nil
  rw [FileTree.slotIn_of_walk false hcheck (FileTree.walk_idle hd hdot) hd] at hslot
  exact FileTree.placeOf_of_slot Slot.makeFault_eq_none hslot ⟨hname, rfl⟩ free

/-! ## What a store does -/

theorem storeWith_of_seal?_none (failure : Option WriteFailure)
    (h : v.seal? (g.nonces g.drawn) p = none) :
    v.storeWith failure p path g = (.error .encrypt, { g with drawn := g.drawn + 1 }) := by
  simp only [storeWith, Host.draw, h]

theorem storeWith_of_seal? (failure : Option WriteFailure)
    (h : v.seal? (g.nonces g.drawn) p = some sealed) :
    v.storeWith failure p path g
      = ((storeSealedWith failure g.files (temporaryPath (encode path) g.process g.stores)
            (encode path) sealed).1.mapError (.write path),
          { g with
            files := (storeSealedWith failure g.files
              (temporaryPath (encode path) g.process g.stores) (encode path) sealed).2
            drawn := g.drawn + 1
            stores := g.stores + 1 }) := by
  simp only [storeWith, Host.draw, h]

theorem store_of_seal?_none (h : v.seal? (g.nonces g.drawn) p = none) :
    v.store p path g = (.error .encrypt, { g with drawn := g.drawn + 1 }) :=
  storeWith_of_seal?_none none h

theorem store_of_seal? (h : v.seal? (g.nonces g.drawn) p = some sealed) :
    v.store p path g
      = ((storeSealed g.files (temporaryPath (encode path) g.process g.stores) (encode path)
            sealed).1.mapError (.write path),
          { g with
            files := (storeSealed g.files (temporaryPath (encode path) g.process g.stores)
              (encode path) sealed).2
            drawn := g.drawn + 1
            stores := g.stores + 1 }) :=
  storeWith_of_seal? none h

/-- A store whose temporary file cannot take the target's place takes that file away. -/
theorem store_of_unplaced {q : Place} {e : FileError}
    (hseal : v.seal? (g.nonces g.drawn) p = some sealed)
    (made : g.files.placeOf Slot.makeFault (temporaryPath (encode path) g.process g.stores) = .ok q)
    (moved : (g.files.set q (.file fileMode sealed)).placeOf Slot.moveFault (encode path) = .error e) :
    v.store p path g
      = (.error (.write path e),
          { g with
            files := (g.files.set q (.file fileMode sealed)).erase q
            drawn := g.drawn + 1
            stores := g.stores + 1 }) := by
  rw [store_of_seal? hseal, storeSealed_of_place made, moved]
  rfl

theorem process_store (v : Vault) (p : Bytes) (path : String) (g : Host) :
    (v.store p path g).2.process = g.process := by
  cases hseal : v.seal? (g.nonces g.drawn) p with
  | none => rw [store_of_seal?_none hseal]
  | some sealed => rw [store_of_seal? hseal]

/-- What a store may do to a host, with its result. -/
inductive Stored (v : Vault) (p : Bytes) (path : String) (g : Host) :
    Except CredentialError Unit → Host → Prop where
  | failed {e : CredentialError} {g' : Host} (files : g'.files = g.files) :
      Stored v p path g (.error e) g'
  | stored {q : Place} {sealed : Bytes} {g' : Host}
      (place : g.files.placeOf Slot.moveFault (encode path) = .ok q)
      (opens : ∀ origin, v.openSealed sealed origin = .ok p)
      (files : g'.files = g.files.set q (.file fileMode sealed)) : Stored v p path g (.ok ()) g'

/-- What a store does to the files, by way of a name that was not in use. -/
theorem storeSealed_of_ready (ready : g.Ready paths) (hpath : path ∈ paths) {before : List Bytes}
    (hseg : ∀ process store, Path.segments (temporaryPath (encode path) process store)
      = before ++ [temporaryName process store]) (sealed : Bytes) :
    storeSealed g.files (temporaryPath (encode path) g.process g.stores) (encode path) sealed
      = match g.files.slotIn before (temporaryName g.process g.stores) false
          (temporaryPath (encode path) g.process g.stores) with
        | .error e => (.error e, g.files)
        | .ok _ =>
          match g.files.placeOf Slot.moveFault (encode path) with
          | .error e => (.error e, g.files)
          | .ok q => (.ok (), g.files.set q (.file fileMode sealed)) :=
  storeSealed_of_avoids (ready.unused g.stores) (isFileName_temporaryName g.process g.stores)
    (hseg g.process g.stores) (ready.apart path hpath g.stores) sealed

/-- A store by way of a path that led nowhere does one of the things that are listed. -/
theorem store_of_unused
    (unused : ∀ e, g.files.lookup (temporaryPath (encode path) g.process g.stores) ≠ .ok e) :
    Stored v p path g (v.store p path g).1 (v.store p path g).2 := by
  cases hseal : v.seal? (g.nonces g.drawn) p with
  | none =>
    rw [store_of_seal?_none hseal]
    exact .failed rfl
  | some sealed =>
    rw [store_of_seal? hseal]
    rcases storeSealed_of_unused unused (encode path) sealed with ⟨e, hfailed⟩ | ⟨q, hq, hstored⟩
    · rw [hfailed]
      exact .failed rfl
    · rw [hstored]
      exact .stored hq (openSealed_of_seal? hseal) rfl

/-- No temporary path of a host that is ready leads anywhere. -/
theorem lookup_temporaryPath_ne_ok (ready : g.Ready paths) (path : String) (e : Storage.Entry) :
    g.files.lookup (temporaryPath (encode path) g.process g.stores) ≠ .ok e := by
  obtain ⟨before, -, hseg⟩ := segments_temporaryPath (encode path)
  exact (ready.unused g.stores).lookup_ne_ok (isFileName_temporaryName g.process g.stores)
    (hseg g.process g.stores) e

/-- A store does one of the things that are listed. -/
theorem store_stored (ready : g.Ready paths) (v : Vault) (p : Bytes) (path : String) :
    Stored v p path g (v.store p path g).1 (v.store p path g).2 :=
  store_of_unused (lookup_temporaryPath_ne_ok ready path)

/-- A host stays ready through stores. -/
theorem ready_store (ready : g.Ready paths) (hpath : path ∈ paths) (v : Vault) (p : Bytes) :
    (v.store p path g).2.Ready paths := by
  have hprocess := process_store v p path g
  have hstored := store_stored ready v p path
  generalize v.store p path g = r at hprocess hstored
  obtain ⟨result, g'⟩ := r
  cases hstored with
  | failed files => exact ready.congr files hprocess
  | @stored q sealed _ place opens files =>
    obtain ⟨s, hs, hf, rfl, -⟩ := FileTree.placeOf_eq_ok Slot.moveFault_eq_none place
    have hset : { g with files := g.files.set s.place (.file fileMode sealed) }.Ready paths := by
      refine ⟨?_, ready.apart⟩
      intro n
      have hunused := ready.unused n
      exact hunused.set (hunused.not_mem_place hs hf (ready.apart path hpath n)) _
    exact hset.congr files hprocess

/-- What is stored is no longer than the cipher takes. -/
theorem length_le_of_store (h : (v.store p path g).1 = .ok ()) :
    p.length ≤ Crypto.Gcm.maxLength := by
  by_contra long
  rw [store_of_seal?_none (seal?_eq_none_iff.2 (Nat.not_le.1 long))] at h
  cases h

/-- A store succeeds where its target is in a directory and can be replaced. -/
theorem store_ok (ready : g.Ready paths) (hpath : path ∈ paths) {s : Slot}
    (hs : g.files.slot (encode path) = .ok s) (hf : s.HoldsFile)
    (hd : g.files.get? s.place ≠ some .directory)
    (fits : FileTree.checkPath (temporaryPath (encode path) g.process g.stores) = .ok ())
    (short : p.length ≤ Crypto.Gcm.maxLength) : (v.store p path g).1 = .ok () := by
  obtain ⟨sealed, hseal⟩ := seal?_of_le (v := v) short (g.nonces g.drawn)
  obtain ⟨-, hdir, front, hseg, hwalk⟩ := FileTree.slot_eq_ok hs hf
  obtain ⟨before, htrim, htemporary⟩ :=
    segments_temporaryPath_of_target hseg hf.not_isIdle (by simp)
  -- The temporary file goes to where the walk to the target's directory leads.
  have horigin : g.files.origin (temporaryPath (encode path) g.process g.stores)
      = g.files.origin (encode path) := by
    rw [FileTree.origin, FileTree.origin, (htemporary g.process g.stores).1]
  have hbefore : g.files.walk (g.files.origin (encode path)) before = .ok s.directory :=
    FileTree.walk_of_trimEnd hdir hwalk htrim
  rw [← horigin] at hbefore
  have hslot := FileTree.slotIn_of_walk (n := temporaryName g.process g.stores) false fits hbefore
    hdir
  have hplace := FileTree.placeOf_of_slot Slot.moveFault_eq_none hs hf hd
  rw [store_of_seal? hseal, storeSealed_of_ready ready hpath fun process store =>
    (htemporary process store).2, hslot, hplace]
  rfl

/-- A store that succeeds puts the password, sealed, in the slot of its path. -/
theorem store_slot (ready : g.Ready paths) {s : Slot}
    (hs : g.files.slot (encode path) = .ok s)
    (hok : (v.store p path g).1 = .ok ()) :
    ∃ sealed, (∀ origin, v.openSealed sealed origin = .ok p)
      ∧ (v.store p path g).2.files = g.files.set s.place (.file fileMode sealed) := by
  have hstored := store_stored ready v p path
  generalize v.store p path g = r at hok hstored
  obtain ⟨result, g'⟩ := r
  cases hok
  cases hstored with
  | @stored q sealed _ place opens files =>
    obtain ⟨s', hs', -, rfl, -⟩ := FileTree.placeOf_eq_ok Slot.moveFault_eq_none place
    rw [hs] at hs'
    cases hs'
    exact ⟨sealed, opens, files⟩

end Vault

end PbxAgent
