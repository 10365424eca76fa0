import PbxAgent.Proofs.Vault.Holding

/-!
# Stores that are cut off

A store may end anywhere: with the last of its operations, at one that fails, or before any of them. Up to
the last, nothing but its temporary file is touched, and with the last the target is replaced (`Leaves`).
So after any stores, of which the last is cut off, every path holds what was last put in its place
(`crash_safe`).
-/

namespace PbxAgent.Vault

open Storage (FileTree FileError Path Place)
open Storage.FileTree (Slot SameDirectories ChangedAt)
open Text.Utf8 (encode)

/-! ## What a store leaves -/

/-- What a store may leave of the files, wherever it ends, and whether its target has been replaced. -/
inductive Leaves (t : FileTree) (temporary target : Path) (sealed : Bytes) : Bool → FileTree → Prop
  | untouched : Leaves t temporary target sealed false t
  /-- At most the temporary file is there or not. -/
  | unplaced {s : Slot} {u : FileTree} (slot : t.slot temporary = .ok s) (holdsFile : s.HoldsFile)
      (changed : ChangedAt s.place t u) : Leaves t temporary target sealed false u
  | placed {s : Slot} {u : FileTree} {q : Place} (slot : t.slot temporary = .ok s)
      (holdsFile : s.HoldsFile) (changed : ChangedAt s.place t u)
      (place : t.placeOf Slot.moveFault target = .ok q) :
      Leaves t temporary target sealed true (u.set q (.file fileMode sealed))

section
variable {t u : FileTree} {temporary target : Path} {sealed : Bytes} {s : Slot} {mode : Nat}

/-- A temporary file that is taken away again. -/
theorem changedAt_set_erase (hd : t.get? s.place ≠ some .directory) (mode : Nat) (data : Bytes) :
    ChangedAt s.place t ((t.set s.place (.file mode data)).erase s.place) := by
  refine (ChangedAt.set_file hd mode data).trans (.erase ?_)
  rw [FileTree.get?_set_self _ s.place_ne_nil]
  nofun

theorem leaves_place (hs : t.slot temporary = .ok s) (hf : s.HoldsFile)
    (hd : t.get? s.place ≠ some .directory) (mode : Nat) (target : Path) (sealed : Bytes) :
    Leaves t temporary target sealed
      (applyAll (placeOperations temporary target) (t.set s.place (.file mode sealed))).1.isOk
      (applyAll (placeOperations temporary target) (t.set s.place (.file mode sealed))).2 := by
  have same := SameDirectories.set_file hd fileMode sealed
  rw [place_of_slot hs hf hd]
  cases hq : (t.set s.place (.file fileMode sealed)).placeOf Slot.moveFault target with
  | error e => exact .unplaced hs hf (.set_file hd fileMode sealed)
  | ok q =>
    exact .placed hs hf (changedAt_set_erase hd fileMode sealed)
      (same.symm.placeOf Slot.moveFault_eq_none hq)

/-- Cut off once its temporary file has been made, a store has written some of the pieces, and gone on
only if these are all. -/
theorem applyAll_take_of_create (hcreate : t.create temporary = .ok (t.set s.place (.file mode [])))
    (hs : t.slot temporary = .ok s) (hf : s.HoldsFile) (hd : t.get? s.place ≠ some .directory)
    (pieces : List Bytes) (cut : Nat) :
    applyAll ((storeOperations temporary target pieces).take (cut + 1)) t
      = applyAll ((placeOperations temporary target).take (cut - pieces.length))
          (t.set s.place (.file mode (pieces.take cut).flatten)) := by
  have hcut : (storeOperations temporary target pieces).take (cut + 1)
      = .create temporary :: ((pieces.take cut).map (.append temporary)
        ++ (placeOperations temporary target).take (cut - pieces.length)) := by
    have hlength : (pieces.map (Operation.append temporary)).length = pieces.length :=
      List.length_map _
    rw [List.map_take, ← hlength, ← List.take_append]
    rfl
  have hpieces := append_pieces hs hf hd mode [] (pieces.take cut)
  rw [List.nil_append] at hpieces
  rw [hcut, applyAll, Operation.apply, hcreate]
  show applyAll (_ ++ _) (t.set s.place (.file mode [])) = _
  rw [applyAll_append, hpieces]

/-- What is left when a store is cut off after any number of its operations. -/
theorem leaves_take (t : FileTree) (temporary target : Path) (pieces : List Bytes) (cut : Nat) :
    Leaves t temporary target pieces.flatten
      (decide ((storeOperations temporary target pieces).length ≤ cut)
        && (applyAll ((storeOperations temporary target pieces).take cut) t).1.isOk)
      (applyAll ((storeOperations temporary target pieces).take cut) t).2 := by
  have hlength : (storeOperations temporary target pieces).length = pieces.length + 3 := by
    simp [storeOperations, writeOperations, placeOperations]
  rw [hlength]
  cases cut with
  | zero => exact .untouched
  | succ cut =>
    cases hp : t.placeOf Slot.makeFault temporary with
    | error e =>
      have hleft : applyAll ((storeOperations temporary target pieces).take (cut + 1)) t
          = (.error e, t) := by
        show applyAll (.create temporary :: _) t = _
        rw [applyAll, Operation.apply, FileTree.create_of_placeOf_error hp]
      rw [hleft, show (Except.error e : Except FileError Unit).isOk = false from rfl, Bool.and_false]
      exact .untouched
    | ok p =>
      obtain ⟨mode, -, hcreate⟩ := FileTree.create_of_placeOf hp
      obtain ⟨s, hs, hf, rfl, hd⟩ := FileTree.placeOf_eq_ok Slot.makeFault_eq_none hp
      rw [applyAll_take_of_create hcreate hs hf hd]
      -- The file is still to get its mode, or it has, or all is done that was to be.
      rcases hrest : cut - pieces.length with _ | _ | rest
      · rw [decide_eq_false (by omega), Bool.false_and]
        exact .unplaced hs hf (.set_file hd mode _)
      · rw [decide_eq_false (by omega), Bool.false_and]
        have hmode := FileTree.setMode_of_slot
          (FileTree.slot_set_file hd mode (pieces.take cut).flatten hs hf) hf
          (FileTree.get?_set_self _ s.place_ne_nil) fileMode
        rw [FileTree.set_set] at hmode
        have hleft : applyAll ((placeOperations temporary target).take 1)
              (t.set s.place (.file mode (pieces.take cut).flatten))
            = (.ok (), t.set s.place (.file fileMode (pieces.take cut).flatten)) := by
          show applyAll [.setMode temporary fileMode] _ = _
          simp only [applyAll, Operation.apply, hmode]
        rw [hleft]
        exact .unplaced hs hf (.set_file hd fileMode _)
      · have hpieces : pieces.take cut = pieces := List.take_of_length_le (by omega)
        have hplace : (placeOperations temporary target).take (rest + 2)
            = placeOperations temporary target := List.take_of_length_le (by simp [placeOperations])
        rw [decide_eq_true (by omega), Bool.true_and, hpieces, hplace]
        exact leaves_place hs hf hd mode target pieces.flatten

theorem leaves_storeSealed (t : FileTree) (temporary target : Path) (sealed : Bytes) :
    Leaves t temporary target sealed (storeSealed t temporary target sealed).1.isOk
      (storeSealed t temporary target sealed).2 := by
  cases hp : t.placeOf Slot.makeFault temporary with
  | error e =>
    rw [storeSealed_of_error hp]
    exact .untouched
  | ok p =>
    obtain ⟨s, hs, hf, rfl, hd⟩ := FileTree.placeOf_eq_ok Slot.makeFault_eq_none hp
    have same := SameDirectories.set_file hd fileMode sealed
    have changed := changedAt_set_erase hd fileMode sealed
    rw [storeSealed_of_place hp]
    cases hq : (t.set s.place (.file fileMode sealed)).placeOf Slot.moveFault target with
    | error e => exact .unplaced hs hf changed
    | ok q => exact .placed hs hf changed (same.symm.placeOf Slot.moveFault_eq_none hq)

end

/-! ## What is left, place by place -/

namespace Leaves

variable {t u : FileTree} {target : Path} {process : UInt32} {store : UInt64} {sealed : Bytes}
  {placed : Bool}

/-- No store makes or takes away a directory. -/
theorem same {temporary : Path} (h : Leaves t temporary target sealed placed u) :
    SameDirectories t u := by
  cases h with
  | untouched => exact .refl t
  | unplaced _ _ changed => exact changed.toSameDirectories
  | placed _ _ changed place =>
    obtain ⟨-, -, -, -, hd⟩ := FileTree.placeOf_eq_ok Slot.moveFault_eq_none place
    rw [Ne, changed.directory_iff] at hd
    exact changed.toSameDirectories.trans (.set_file hd fileMode sealed)

/-- A target that has been replaced has the credential in its place. -/
theorem get?_goal {temporary : Path} (h : Leaves t temporary target sealed true u) :
    ∃ q, t.goal? target = some q ∧ u.get? q = some (.file fileMode sealed) := by
  cases h with
  | @placed _ _ q _ _ _ place =>
    obtain ⟨s, -, -, rfl, -⟩ := FileTree.placeOf_eq_ok Slot.moveFault_eq_none place
    exact ⟨s.place, FileTree.goal?_of_placeOf Slot.moveFault_eq_none place,
      FileTree.get?_set_self _ s.place_ne_nil⟩

/-- What has another name than the temporary file is as it was, but for a target that has been
replaced. -/
theorem get?_eq (h : Leaves t (temporaryPath target process store) target sealed placed u)
    {p : Place} (hp : p.getLast? ≠ some (temporaryName process store))
    (htarget : placed = true → t.goal? target ≠ some p) : u.get? p = t.get? p := by
  have hplace : ∀ s : Slot, t.slot (temporaryPath target process store) = .ok s → s.HoldsFile →
      p ≠ s.place := by
    rintro s hs hf rfl
    refine hp ?_
    rw [Slot.place, List.getLast?_concat, name_eq_temporaryName hs hf]
  cases h with
  | untouched => rfl
  | unplaced hs hf changed => exact changed.others p (hplace _ hs hf)
  | @placed _ w q hs hf changed place =>
    have hpq : p ≠ q := by
      rintro rfl
      exact htarget rfl (FileTree.goal?_of_placeOf Slot.moveFault_eq_none place)
    rw [FileTree.get?_set_ne _ hpq]
    exact changed.others p (hplace _ hs hf)

/-- A target that has not been replaced leads to what it led to. -/
theorem lookup_target (h : Leaves t (temporaryPath target process store) target sealed false u)
    (apart : Path.lastName? target ≠ some (temporaryName process store)) :
    u.lookup target = t.lookup target := by
  cases h with
  | untouched => rfl
  | unplaced hs hf changed => exact Vault.lookup_target hs hf changed apart

end Leaves

/-! ## Stores one after the other -/

/-- A password to be stored, and where. -/
structure Request where
  plaintext : Bytes
  path : String

/-- A store that was begun: by way of which name, and whether it was completed. -/
structure Deposit where
  request : Request
  temporary : Storage.Name
  completed : Bool

/-- Stores passwords one after the other. Gives what came of each, the first one first, and the host
then. -/
def storeAll (v : Vault) (h : Host) : List Request → List Deposit × Host
  | [] => ([], h)
  | r :: rs =>
    let stored := v.store r.plaintext r.path h
    (⟨r, temporaryName h.process h.stores, stored.1.isOk⟩ :: (v.storeAll stored.2 rs).1,
      (v.storeAll stored.2 rs).2)

/-- The password that was stored last in a place, by the directories of a tree. -/
def lastStored (t : FileTree) (log : List Deposit) (p : Place) : Option Bytes :=
  (log.reverse.find? fun d => d.completed && t.goal? (encode d.request.path) = some p).map
    (·.request.plaintext)

/-- Whether a place has the name of a temporary file that was written. -/
def IsTemporary (log : List Deposit) (p : Place) : Prop :=
  ∃ d ∈ log, p.getLast? = some d.temporary

section
variable {t : FileTree} {log : List Deposit} {d : Deposit} {p : Place}

theorem lastStored_concat_of_placed (completed : d.completed = true)
    (goal : t.goal? (encode d.request.path) = some p) :
    lastStored t (log ++ [d]) p = some d.request.plaintext := by
  simp [lastStored, completed, goal]

theorem lastStored_concat (h : d.completed = true → t.goal? (encode d.request.path) ≠ some p) :
    lastStored t (log ++ [d]) p = lastStored t log p := by
  have hnot : (d.completed && decide (t.goal? (encode d.request.path) = some p)) = false := by
    rw [Bool.and_eq_false_imp]
    intro completed
    exact decide_eq_false (h completed)
  simp [lastStored, hnot]

theorem IsTemporary.concat (h : IsTemporary log p) (d : Deposit) : IsTemporary (log ++ [d]) p := by
  obtain ⟨x, hx, hp⟩ := h
  exact ⟨x, List.mem_append_left _ hx, hp⟩

end

/-- What stores that were begun on a tree have made of it: its directories are as they were, and any place
but those of temporary files holds the password that was stored there last, or what it held at first. -/
structure Ledger (v : Vault) (t : FileTree) (log : List Deposit) (u : FileTree) : Prop where
  same : SameDirectories t u
  goals : ∀ d ∈ log, d.completed = true → t.goal? (encode d.request.path) ≠ none
  stored : ∀ p plaintext, ¬ IsTemporary log p → lastStored t log p = some plaintext →
    v.Holds u p (some plaintext)
  kept : ∀ p, ¬ IsTemporary log p → lastStored t log p = none → u.get? p = t.get? p

namespace Ledger

variable {v : Vault} {t u w : FileTree} {log : List Deposit}

theorem start (v : Vault) (t : FileTree) : Ledger v t [] t where
  same := .refl t
  goals := nofun
  stored _ _ _ h := by cases h
  kept _ _ _ := rfl

/-- A store, cut off or not, keeps the ledger. -/
theorem concat (k : Ledger v t log u) {d : Deposit} {process : UInt32} {store : UInt64}
    {sealed : Bytes} (name : d.temporary = temporaryName process store)
    (opens : d.completed = true → ∀ origin, v.openSealed sealed origin = .ok d.request.plaintext)
    (leaves : Leaves u (temporaryPath (encode d.request.path) process store)
      (encode d.request.path) sealed d.completed w) : Ledger v t (log ++ [d]) w := by
  have hgoal := k.same.goal?_eq (encode d.request.path)
  -- A place that no store has just replaced is as it was, and the log tells the same of it.
  have hold : ∀ p, ¬ IsTemporary (log ++ [d]) p →
      (d.completed = true → t.goal? (encode d.request.path) ≠ some p) →
      ¬ IsTemporary log p ∧ w.get? p = u.get? p := by
    intro p hp htarget
    refine ⟨fun h => hp (h.concat d), leaves.get?_eq ?_ ?_⟩
    · rw [← name]
      exact fun h => hp ⟨d, List.mem_append_right _ List.mem_cons_self, h⟩
    · rw [← hgoal]
      exact htarget
  have hnew : d.completed = true → ∀ p, t.goal? (encode d.request.path) = some p →
      v.Holds w p (some d.request.plaintext) := by
    intro completed p hp
    rw [completed] at leaves
    obtain ⟨q, hq, hget⟩ := leaves.get?_goal
    rw [hgoal, hq] at hp
    cases hp
    exact ⟨sealed, hget, opens completed⟩
  refine ⟨k.same.trans leaves.same, ?_, ?_, ?_⟩
  · intro x hx completed
    rcases List.mem_append.1 hx with hx | hx
    · exact k.goals x hx completed
    · obtain rfl := List.mem_singleton.1 hx
      rw [completed] at leaves
      obtain ⟨q, hq, -⟩ := leaves.get?_goal
      rw [hgoal, hq]
      exact Option.some_ne_none q
  · intro p plaintext hp hlast
    by_cases h : d.completed = true ∧ t.goal? (encode d.request.path) = some p
    · rw [lastStored_concat_of_placed h.1 h.2] at hlast
      cases hlast
      exact hnew h.1 p h.2
    · rw [lastStored_concat (not_and.1 h)] at hlast
      obtain ⟨hp, hget⟩ := hold p hp (not_and.1 h)
      exact (k.stored p plaintext hp hlast).congr hget
  · intro p hp hlast
    by_cases h : d.completed = true ∧ t.goal? (encode d.request.path) = some p
    · rw [lastStored_concat_of_placed h.1 h.2] at hlast
      cases hlast
    · rw [lastStored_concat (not_and.1 h)] at hlast
      obtain ⟨hp, hget⟩ := hold p hp (not_and.1 h)
      exact hget.trans (k.kept p hp hlast)

/-- A store that runs to its end keeps the ledger. -/
theorem store {g : Host} (k : Ledger v t log g.files) (r : Request) :
    Ledger v t
      (log ++ [⟨r, temporaryName g.process g.stores, (v.store r.plaintext r.path g).1.isOk⟩])
      (v.store r.plaintext r.path g).2.files := by
  cases hseal : v.seal? (g.nonces g.drawn) r.plaintext with
  | none =>
    have leaves : Leaves g.files (temporaryPath (encode r.path) g.process g.stores)
        (encode r.path) [] false g.files := .untouched
    rw [store_of_seal?_none hseal]
    exact k.concat rfl nofun leaves
  | some sealed =>
    have leaves := leaves_storeSealed g.files
      (temporaryPath (encode r.path) g.process g.stores) (encode r.path) sealed
    rw [store_of_seal? hseal, isOk_mapError]
    exact k.concat rfl (fun _ => openSealed_of_seal? hseal) leaves

/-- So do stores one after the other. -/
theorem storeAll {g : Host} (k : Ledger v t log g.files) (rs : List Request) :
    Ledger v t (log ++ (v.storeAll g rs).1) (v.storeAll g rs).2.files := by
  induction rs generalizing g log with
  | nil =>
    rw [Vault.storeAll, List.append_nil]
    exact k
  | cons r rs ih =>
    have hrest := ih (k.store r)
    rwa [List.append_assoc, List.singleton_append] at hrest

/-- What is loaded, as the ledger has it. -/
theorem load (k : Ledger v t log u) {path : String} {p : Place}
    (goal : t.goal? (encode path) = some p) (hp : ¬ IsTemporary log p) :
    v.load path u = match lastStored t log p with
      | some plaintext => .ok plaintext
      | none => v.load path t := by
  have goal' : u.goal? (encode path) = some p := by rw [← k.same.goal?_eq, goal]
  cases hlast : lastStored t log p with
  | some plaintext => exact (k.stored p plaintext hp hlast).load_of_goal? goal'
  | none =>
    unfold Vault.load
    rw [FileTree.lookup_of_goal? goal, FileTree.lookup_of_goal? goal', k.kept p hp hlast]

/-- From a path that leads nowhere nothing is ever loaded. -/
theorem load_of_goal?_eq_none (k : Ledger v t log u) {path : String}
    (goal : t.goal? (encode path) = none) : ∃ e, v.load path u = .error (.read path e) := by
  rw [k.same.goal?_eq] at goal
  obtain ⟨e, hlookup⟩ := FileTree.lookup_of_goal?_eq_none goal
  exact ⟨e, by rw [Vault.load, hlookup]⟩

end Ledger

/-! ## Crashes -/

/-- **A store that is cut off leaves the old or the new.** Whatever the files, whatever stores were done on
them, and wherever the next is cut off, with its content written in whatever pieces: its target, unless it
has the name of the temporary file itself, is loaded as the new password if the last of the operations was
done, and exactly as before if not. Any other path is loaded as the password that was last put where it
leads, or exactly as at first if none was; but the places of temporary files are left out, and so are the
paths that no file can be put at. Nothing is ever stored at these, and to load from them is an error before
and after. Operations that are not cut off come to what the store comes to. -/
theorem crash_safe (v : Vault) (start : Host) (done : List Request) (next : Request)
    (pieces : List Bytes) (cut : Nat)
    (sealed : v.seal? ((v.storeAll start done).2.nonces (v.storeAll start done).2.drawn)
      next.plaintext = some pieces.flatten) :
    let before := (v.storeAll start done).2
    let name := temporaryName before.process before.stores
    let operations := storeOperations
      (temporaryPath (encode next.path) before.process before.stores) (encode next.path) pieces
    let left := applyAll (operations.take cut) before.files
    let completed := decide (operations.length ≤ cut) && left.1.isOk
    let log := (v.storeAll start done).1 ++ [⟨next, name, completed⟩]
    (Path.lastName? (encode next.path) ≠ some name →
        v.load next.path left.2
          = if completed then .ok next.plaintext else v.load next.path before.files)
      ∧ (∀ path, match start.files.goal? (encode path) with
          | some place => ¬ IsTemporary log place →
              v.load path left.2 = match lastStored start.files log place with
                | some plaintext => .ok plaintext
                | none => v.load path start.files
          | none => (∀ d ∈ log, d.request.path = path → d.completed = false)
              ∧ (∃ e, v.load path start.files = .error (.read path e))
              ∧ ∃ e, v.load path left.2 = .error (.read path e))
      ∧ (operations.length ≤ cut →
          (v.store next.plaintext next.path before).1 = left.1.mapError (.write next.path)
            ∧ (left.1 = .ok () → (v.store next.plaintext next.path before).2.files = left.2)) := by
  intro before name operations left completed log
  have opens := openSealed_of_seal? sealed
  have leaves : Leaves before.files
      (temporaryPath (encode next.path) before.process before.stores) (encode next.path)
      pieces.flatten completed left.2 :=
    leaves_take before.files _ _ pieces cut
  have ledger : Ledger v start.files log left.2 :=
    ((Ledger.start v start.files).storeAll done).concat rfl (fun _ => opens) leaves
  refine ⟨?_, ?_, ?_⟩
  · intro apart
    generalize completed = placed at leaves
    cases placed with
    | true =>
      obtain ⟨q, goal, hget⟩ := leaves.get?_goal
      rw [leaves.same.goal?_eq] at goal
      have holds : v.Holds left.2 q (some next.plaintext) := ⟨pieces.flatten, hget, opens⟩
      exact holds.load_of_goal? goal
    | false =>
      show v.load next.path left.2 = v.load next.path before.files
      unfold Vault.load
      rw [leaves.lookup_target apart]
  · intro path
    cases goal : start.files.goal? (encode path) with
    | some place => exact ledger.load goal
    | none =>
      refine ⟨?_, (Ledger.start v start.files).load_of_goal?_eq_none goal,
        ledger.load_of_goal?_eq_none goal⟩
      intro d hd hpath
      rw [Bool.eq_false_iff]
      intro hcompleted
      exact ledger.goals d hd hcompleted (by rw [hpath]; exact goal)
  · intro hcut
    have hall : left = applyAll operations before.files := by
      show applyAll (operations.take cut) before.files = _
      rw [List.take_of_length_le hcut]
    obtain ⟨hresult, hfiles⟩ := storeSealed_eq_applyAll before.files
      (temporaryPath (encode next.path) before.process before.stores) (encode next.path) pieces
    rw [store_of_seal? sealed, hall]
    exact ⟨congrArg (Except.mapError (CredentialError.write next.path)) hresult, hfiles⟩

/-- A new password takes the place of an old one with the last of five operations, and not before. -/
theorem crash_safe_midway :
    let v := ofSecret (encode "secret")
    let start : Host := { nonces := fun _ => Vector.replicate 12 0 }
    let before := (v.storeAll start [⟨encode "old", "login"⟩]).2
    let temporary := temporaryPath (encode "login") before.process before.stores
    ∃ nonce ciphertext,
      v.seal? (before.nonces before.drawn) (encode "new") = some [nonce, ciphertext].flatten
        ∧ ∀ cut, v.load "login"
            (applyAll ((storeOperations temporary (encode "login") [nonce, ciphertext]).take cut)
              before.files).2 = .ok (if cut < 5 then encode "old" else encode "new") := by
  intro v start before temporary
  clear_value v
  have fits : ∀ process store,
      FileTree.checkPath (temporaryPath (encode "login") process store) = .ok () :=
    fun process store => checkPath_temporaryPath process store (n := encode "login") (by decide)
  have hold : (encode "old").length ≤ Crypto.Gcm.maxLength := by decide
  have hnew : (encode "new").length ≤ Crypto.Gcm.maxLength := by decide
  have apart : ∀ process store,
      Path.lastName? (encode "login") ≠ some (temporaryName process store) := by
    intro process store hlast
    have hname : encode "login" = temporaryName process store := Option.some_inj.1 hlast
    have hhead := head?_temporaryName process store
    rw [← hname] at hhead
    exact absurd hhead (by decide)
  obtain ⟨s, hslot, hfile, hfree⟩ : ∃ s, start.files.slot (encode "login") = .ok s
      ∧ s.HoldsFile ∧ start.files.get? s.place ≠ some .directory :=
    ⟨⟨[], encode "login", false⟩, rfl, by decide, nofun⟩
  -- The old password is stored, and the host is ready for the new one.
  have ready : start.Ready ["login"] := Host.ready_of_dotless (by decide) (by decide)
  have hstored := store_ok (v := v) ready List.mem_cons_self hslot hfile hfree (fits _ _) hold
  obtain ⟨old, opens, files⟩ := store_slot ready hslot hstored
  have ready' := ready_store ready List.mem_cons_self v (encode "old")
  have hbefore : (v.store (encode "old") "login" start).2 = before := by
    show _ = (v.storeAll start [⟨encode "old", "login"⟩]).2
    rw [storeAll, storeAll]
  rw [hbefore] at files ready'
  have hslot' : before.files.slot (encode "login") = .ok s := by
    rw [files]
    exact FileTree.slot_set_file hfree fileMode old hslot hfile
  have holds : v.Holds before.files s.place (some (encode "old")) := by
    rw [files]
    exact holds_set_self s.place_ne_nil opens
  have hstored' :=
    store_ok (v := v) ready' List.mem_cons_self hslot' hfile holds.ne_directory (fits _ _) hnew
  -- The new one, sealed, is written in two pieces.
  obtain ⟨sealed, hseal⟩ := seal?_of_le (v := v) hnew (before.nonces before.drawn)
  have hpieces : [sealed.take nonceLength, sealed.drop nonceLength].flatten = sealed := by simp
  rw [← hpieces] at hseal
  refine ⟨sealed.take nonceLength, sealed.drop nonceLength, hseal, ?_⟩
  intro cut
  obtain ⟨htarget, -, hwhole⟩ := crash_safe v start [⟨encode "old", "login"⟩]
    ⟨encode "new", "login"⟩ [sealed.take nonceLength, sealed.drop nonceLength] cut hseal
  refine (htarget (apart _ _)).trans ?_
  rcases Nat.lt_or_ge cut 5 with hcut | hcut
  · show (if decide (5 ≤ cut) && _ then _ else _) = _
    rw [decide_eq_false (Nat.not_le.2 hcut), Bool.false_and, if_neg Bool.false_ne_true, if_pos hcut]
    exact holds.load hslot' hfile
  · obtain ⟨hresult, -⟩ := hwhole hcut
    have hdone := mapError_eq_ok.1 (hresult.symm.trans hstored')
    show (if decide (5 ≤ cut) && _ then _ else _) = _
    rw [decide_eq_true hcut, Bool.true_and, hdone, if_neg (Nat.not_lt.2 hcut)]
    rfl

end PbxAgent.Vault
