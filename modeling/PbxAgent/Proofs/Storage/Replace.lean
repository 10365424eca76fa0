import PbxAgent.Proofs.Storage.Slot

/-!
# Making and replacing files

Where a file is made and where one is replaced is found in the same way (`placeOf`); only the faults
of a slot are reported differently. With the place found, every operation on a file is a change at
one place. A place with nothing at it, such as any of a name that nothing in the tree has (`Avoids`),
can be taken for a while and given back without a trace (`erase_set`).
-/

namespace PbxAgent.Storage

namespace FileTree

/-! ## Places for files -/

/-- What keeps a file from being made in a slot. -/
def Slot.makeFault (s : Slot) : Option FileError :=
  if !s.isNamed || s.slashed then some .isDirectory
  else if maxName < s.name.length then some .nameTooLong
  else none

/-- What keeps a file from being moved to a slot. -/
def Slot.moveFault (s : Slot) : Option FileError :=
  if !s.isNamed then some .busy
  else if maxName < s.name.length then some .nameTooLong
  else if s.slashed then some .notDirectory
  else none

theorem Slot.isNamed_iff {s : Slot} :
    s.isNamed = true ↔ s.name ≠ [] ∧ s.name ≠ Path.dot ∧ s.name ≠ Path.dotDot := by
  simp [Slot.isNamed, and_assoc]

theorem Slot.holdsFile_iff {s : Slot} :
    s.HoldsFile ↔ s.isNamed = true ∧ s.slashed = false ∧ s.name.length ≤ maxName := by
  constructor
  · intro h
    exact ⟨h.isNamed, h.unslashed, h.short⟩
  · rintro ⟨named, unslashed, short⟩
    obtain ⟨ne_nil, ne_dot, ne_dotDot⟩ := Slot.isNamed_iff.1 named
    exact ⟨⟨ne_nil, ne_dot, ne_dotDot, short⟩, unslashed⟩

instance (s : Slot) : Decidable s.HoldsFile :=
  decidable_of_iff _ Slot.holdsFile_iff.symm

theorem Slot.makeFault_eq_none (s : Slot) : s.makeFault = none ↔ s.HoldsFile := by
  rw [Slot.holdsFile_iff, Slot.makeFault]
  cases s.isNamed <;> cases s.slashed <;> simp

theorem Slot.moveFault_eq_none (s : Slot) : s.moveFault = none ↔ s.HoldsFile := by
  rw [Slot.holdsFile_iff, Slot.moveFault]
  cases s.isNamed <;> cases s.slashed <;> by_cases hlong : maxName < s.name.length <;>
    simp [hlong, Nat.not_le.2, Nat.not_lt.1]

/-- The place for a file of a path; there is no directory at it. -/
def placeOf (fault : Slot → Option FileError) (t : FileTree) (path : Path) :
    Except FileError Place :=
  match t.slot path with
  | .error e => .error e
  | .ok s =>
    match fault s with
    | some e => .error e
    | none => if t.get? s.place = some .directory then .error .isDirectory else .ok s.place

section
variable {fault : Slot → Option FileError} {t : FileTree} {path : Path} {s : Slot} {p : Place}

theorem placeOf_eq_ok (judged : ∀ s, fault s = none ↔ s.HoldsFile)
    (h : t.placeOf fault path = .ok p) :
    ∃ s, t.slot path = .ok s ∧ s.HoldsFile ∧ p = s.place ∧ t.get? p ≠ some .directory := by
  unfold placeOf at h
  cases hs : t.slot path with
  | error e =>
    rw [hs] at h
    cases h
  | ok s =>
    simp only [hs] at h
    cases hf : fault s with
    | some e =>
      rw [hf] at h
      cases h
    | none =>
      simp only [hf] at h
      split at h
      · cases h
      · rename_i hd
        cases h
        exact ⟨s, rfl, (judged s).1 hf, rfl, hd⟩

theorem goal?_of_placeOf (judged : ∀ s, fault s = none ↔ s.HoldsFile)
    (h : t.placeOf fault path = .ok p) : t.goal? path = some p := by
  obtain ⟨s, hs, hf, rfl, -⟩ := placeOf_eq_ok judged h
  exact goal?_of_slot hs hf

theorem placeOf_of_slot (judged : ∀ s, fault s = none ↔ s.HoldsFile) (h : t.slot path = .ok s)
    (hs : s.HoldsFile) (hd : t.get? s.place ≠ some .directory) :
    t.placeOf fault path = .ok s.place := by
  unfold placeOf
  simp only [h, (judged s).2 hs, hd, if_false]

/-- A place that is found is found in any tree with the same directories. -/
theorem SameDirectories.placeOf {u : FileTree} (same : SameDirectories t u)
    (judged : ∀ s, fault s = none ↔ s.HoldsFile) (h : t.placeOf fault path = .ok p) :
    u.placeOf fault path = .ok p := by
  obtain ⟨s, hs, hf, rfl, hd⟩ := placeOf_eq_ok judged h
  rw [Ne, same.directory_iff] at hd
  exact placeOf_of_slot judged (same.slot hs hf) hf hd

end

/-! ## Operations at a place -/

variable {t : FileTree} {path target : Path} {s : Slot} {p : Place} {e : FileError} {mode : Nat}
  {data : Bytes}

theorem create_of_placeOf_error (h : t.placeOf Slot.makeFault path = .error e) :
    t.create path = .error e := by
  -- Both look at the slot in the same order.
  unfold placeOf Slot.makeFault at h
  unfold create
  cases hs : t.slot path with
  | error x =>
    rw [hs] at h
    cases h
    rfl
  | ok s =>
    simp only [hs, bind, Except.bind] at h ⊢
    by_cases hunfit : (!s.isNamed || s.slashed) = true
    · rw [if_pos hunfit] at h ⊢
      cases h
      rfl
    · rw [if_neg hunfit] at h ⊢
      by_cases hlong : maxName < s.name.length
      · rw [if_pos hlong] at h ⊢
        cases h
        rfl
      · rw [if_neg hlong] at h ⊢
        by_cases hd : t.get? s.place = some .directory
        · simp only [hd, if_true] at h ⊢
          cases h
          rfl
        · simp only [hd, if_false] at h
          cases h

/-- A file that was not there before is made for all to read. -/
theorem create_of_placeOf (h : t.placeOf Slot.makeFault path = .ok p) :
    ∃ mode, (t.get? p = none → mode = defaultMode)
      ∧ t.create path = .ok (t.set p (.file mode [])) := by
  obtain ⟨s, hs, hf, rfl, hd⟩ := placeOf_eq_ok Slot.makeFault_eq_none h
  have hfit : (!s.isNamed || s.slashed) = false := by rw [hf.isNamed, hf.unslashed]; rfl
  unfold create
  simp only [hs, bind, Except.bind, hfit, Nat.not_lt.2 hf.short, if_false, Bool.false_eq_true]
  cases hg : t.get? s.place with
  | none => exact ⟨defaultMode, fun _ => rfl, rfl⟩
  | some x =>
    cases x with
    | directory => exact absurd hg hd
    | file mode data => exact ⟨mode, nofun, rfl⟩

/-- A path leads to the file that is in its slot. -/
theorem locate_of_file (h : t.slot path = .ok s) (hs : s.HoldsFile)
    (hg : t.get? s.place = some (.file mode data)) : t.locate path = .ok s.place := by
  rw [locate_of_slot h hs, hg]

theorem append_of_slot (h : t.slot path = .ok s) (hs : s.HoldsFile)
    (hg : t.get? s.place = some (.file mode data)) (more : Bytes) :
    t.append path more = .ok (t.set s.place (.file mode (data ++ more))) := by
  unfold append
  simp only [locate_of_file h hs hg, bind, Except.bind, hg]
  rfl

theorem setMode_of_slot (h : t.slot path = .ok s) (hs : s.HoldsFile)
    (hg : t.get? s.place = some (.file mode data)) (new : Nat) :
    t.setMode path new = .ok (t.set s.place (.file new data)) := by
  unfold setMode
  simp only [locate_of_file h hs hg, bind, Except.bind, hg]
  rfl

theorem remove_of_slot (h : t.slot path = .ok s) (hs : s.HoldsFile)
    (hg : t.get? s.place = some (.file mode data)) : t.remove path = .ok (t.erase s.place) := by
  unfold remove
  simp only [locate_of_file h hs hg, bind, Except.bind, hg]
  rfl

/-- A file that is moved fails to be for reasons of where it is moved to only. -/
theorem rename_of_slot (h : t.slot path = .ok s) (hs : s.HoldsFile)
    (hg : t.get? s.place = some (.file mode data)) :
    t.rename path target = match t.placeOf Slot.moveFault target with
      | .error e => .error e
      | .ok q => .ok ((t.erase s.place).set q (.file mode data)) := by
  -- The source passes every check, so that those of the target are left, in their order.
  unfold rename placeOf Slot.moveFault
  cases hd : t.slot target with
  | error e =>
    simp only [h, bind, Except.bind]
  | ok d =>
    simp only [h, bind, Except.bind, hs.isNamed, hs.unslashed, hg, Bool.not_true, Bool.false_or]
    by_cases hnamed : (!d.isNamed) = true
    · rw [if_pos hnamed, if_pos hnamed]
      rfl
    · rw [if_neg hnamed, if_neg hnamed]
      by_cases hlong : maxName < d.name.length
      · rw [if_pos hlong, if_pos hlong]
        rfl
      · rw [if_neg hlong, if_neg hlong]
        by_cases hslash : d.slashed = true
        · rw [if_pos hslash, if_pos hslash]
          rfl
        · rw [if_neg hslash, if_neg hslash]
          cases hq : t.get? d.place with
          | none => simp [pure, Except.pure]
          | some x => cases x <;> simp [pure, Except.pure]

/-! ## Places that are not in use -/

/-- An entry put where there was nothing goes without a trace. -/
theorem erase_set (hp : p ≠ []) (h : t.get? p = none) (e : Entry) : (t.set p e).erase p = t := by
  rw [get?, if_neg hp, Option.map_eq_none_iff, List.find?_eq_none] at h
  have hfilter : t.entries.filter (·.1 ≠ p) = t.entries := by
    rw [List.filter_eq_self]
    intro x hx
    simpa using h x hx
  unfold FileTree.erase FileTree.set
  simp only [List.filter_cons, ne_eq, not_true_eq_false, decide_false, Bool.false_eq_true, if_false,
    hfilter]

/-- Whether nothing in the tree has a name, nor is below anything that has. -/
structure Avoids (t : FileTree) (n : Name) : Prop where
  workingDirectory : n ∉ t.workingDirectory
  entries : ∀ x ∈ t.entries, n ∉ x.1

namespace Avoids

variable {n : Name} {before : List Name}

theorem get?_eq_none (h : t.Avoids n) (hp : n ∈ p) : t.get? p = none := by
  have hfind : t.entries.find? (·.1 = p) = none := by
    rw [List.find?_eq_none]
    intro x hx heq
    rw [decide_eq_true_eq] at heq
    exact h.entries x hx (by rw [heq]; exact hp)
  rw [get?, if_neg (List.ne_nil_of_mem hp), hfind, Option.map_none]

theorem set (h : t.Avoids n) (hp : n ∉ p) (e : Entry) : (t.set p e).Avoids n where
  workingDirectory := h.workingDirectory
  entries x hx := by
    rcases List.mem_cons.1 hx with rfl | hx
    · exact hp
    · exact h.entries x ((List.mem_filter.1 hx).1)

theorem lookup_ne_ok (h : t.Avoids n) (hn : IsFileName n)
    (hseg : Path.segments path = before ++ [n]) (e : Entry) : t.lookup path ≠ .ok e := by
  intro hlookup
  obtain ⟨q, hlocate, -⟩ := lookup_eq_ok.1 hlookup
  obtain ⟨hc, hw⟩ := locate_eq_ok.1 hlocate
  rw [hseg] at hw
  obtain ⟨d, hbefore, hlast⟩ := walk_append_eq_ok hw
  rw [walk_singleton] at hlast
  have hd := (enter_eq_ok hlast).1
  have hslot : t.slot path = .ok ⟨d, n, false⟩ := by
    rw [slot_of_segments hseg hn.ne_nil, slotIn_of_walk false hc hbefore hd]
  have hmem : n ∈ Slot.place ⟨d, n, false⟩ := List.mem_append_right _ List.mem_cons_self
  rw [lookup_of_slot hslot ⟨hn, rfl⟩, h.get?_eq_none hmem] at hlookup
  cases hlookup

theorem not_mem_place (h : t.Avoids n) (hs : t.slot path = .ok s) (hf : s.HoldsFile)
    (hp : n ∉ Path.segments path) : n ∉ s.place := by
  obtain ⟨-, -, before, hseg, hw⟩ := slot_eq_ok hs hf
  rw [hseg, List.mem_append, List.mem_singleton, not_or] at hp
  rw [Slot.place, List.mem_append, List.mem_singleton, not_or]
  exact ⟨not_mem_of_walk (not_mem_origin h.workingDirectory path) hp.1 hw, hp.2⟩

variable {fault : Slot → Option FileError}

/-- A file under the name does not change where other files go. -/
theorem placeOf_set (h : t.Avoids n) (judged : ∀ s, fault s = none ↔ s.HoldsFile) (hn : n ∈ p)
    (e : Entry) (hp : n ∉ Path.segments path) :
    (t.set p e).placeOf fault path = t.placeOf fault path := by
  unfold placeOf
  rw [slot_set_of_not_mem hn e h.workingDirectory hp]
  cases hs : t.slot path with
  | error e => rfl
  | ok s =>
    cases hf : fault s with
    | some e => simp only [hf]
    | none =>
      have hne : s.place ≠ p := by
        rintro rfl
        exact h.not_mem_place hs ((judged s).1 hf) hp hn
      simp only [hf, get?_set_ne e hne]

/-- A file of the name can be made in any directory. -/
theorem placeOf_last (h : t.Avoids n) (judged : ∀ s, fault s = none ↔ s.HoldsFile)
    (hn : IsFileName n) (hseg : Path.segments path = before ++ [n]) :
    t.placeOf fault path = (t.slotIn before n false path).map Slot.place := by
  have hslot := slot_of_segments (t := t) hseg hn.ne_nil
  cases hs : t.slotIn before n false path with
  | error e =>
    rw [hs] at hslot
    simp only [placeOf, hslot]
    rfl
  | ok s =>
    obtain ⟨-, -, -, rfl, hslashed⟩ := slotIn_eq_ok hs
    have hmem : s.name ∈ s.place := List.mem_append_right _ List.mem_cons_self
    rw [hs] at hslot
    exact placeOf_of_slot judged hslot ⟨hn, hslashed⟩ (by simp [h.get?_eq_none hmem])

end Avoids

end FileTree

end PbxAgent.Storage
