import PbxAgent.Proofs.Storage.Replace

/-!
# Trees alike up to contents

Where paths lead depends on what is a directory and what a file, not on what the files contain. Two
trees that match, with contents related by `R`, lead everywhere alike, and match again after the same
change to both.
-/

namespace PbxAgent.Storage

/-- Entries alike up to the content of a file. -/
inductive Entry.Matches (R : Bytes → Bytes → Prop) : Entry → Entry → Prop where
  | directory : Entry.Matches R .directory .directory
  | file {mode : Nat} {data data' : Bytes} (content : R data data') :
      Entry.Matches R (.file mode data) (.file mode data')

namespace FileTree

/-- Trees alike up to the contents of files. -/
structure Matches (R : Bytes → Bytes → Prop) (t u : FileTree) : Prop where
  workingDirectory : t.workingDirectory = u.workingDirectory
  entries : ∀ p, Option.Rel (Entry.Matches R) (t.get? p) (u.get? p)

namespace Matches

variable {R : Bytes → Bytes → Prop} {t u : FileTree}

/-- What is at a place of two trees that match. -/
theorem at_place (h : Matches R t u) (p : Place) :
    (t.get? p = none ∧ u.get? p = none)
      ∨ (t.get? p = some .directory ∧ u.get? p = some .directory)
      ∨ ∃ mode data data', t.get? p = some (.file mode data) ∧ u.get? p = some (.file mode data')
        ∧ R data data' := by
  have hp := h.entries p
  generalize t.get? p = x at hp
  generalize u.get? p = y at hp
  cases hp with
  | none => exact .inl ⟨rfl, rfl⟩
  | some hp =>
    cases hp with
    | directory => exact .inr (.inl ⟨rfl, rfl⟩)
    | file content => exact .inr (.inr ⟨_, _, _, rfl, rfl, content⟩)

theorem refl (hR : ∀ data, R data data) (t : FileTree) : Matches R t t where
  workingDirectory := rfl
  entries p := by
    cases t.get? p with
    | none => exact .none
    | some e =>
      cases e with
      | directory => exact .some .directory
      | file mode data => exact .some (.file (hR data))

/-! ## Changes -/

theorem set (h : Matches R t u) (p : Place) {e f : Entry} (he : Entry.Matches R e f) :
    Matches R (t.set p e) (u.set p f) where
  workingDirectory := h.workingDirectory
  entries q := by
    by_cases hq : q = p
    · subst hq
      by_cases hnil : q = []
      · rw [hnil, get?_nil, get?_nil]
        exact .some .directory
      · rw [get?_set_self e hnil, get?_set_self f hnil]
        exact .some he
    · rw [get?_set_ne e hq, get?_set_ne f hq]
      exact h.entries q

theorem erase (h : Matches R t u) (p : Place) : Matches R (t.erase p) (u.erase p) where
  workingDirectory := h.workingDirectory
  entries q := by
    by_cases hq : q = p
    · subst hq
      by_cases hnil : q = []
      · rw [hnil, get?_nil, get?_nil]
        exact .some .directory
      · rw [get?_erase_self hnil, get?_erase_self hnil]
        exact .none
    · rw [get?_erase_ne hq, get?_erase_ne hq]
      exact h.entries q

/-! ## Where paths lead -/

theorem enter_eq (h : Matches R t u) (p : Place) (n : Name) : t.enter p n = u.enter p n := by
  unfold enter
  rcases h.at_place p with ⟨ht, hu⟩ | ⟨ht, hu⟩ | ⟨mode, data, data', ht, hu, -⟩
  · rw [ht, hu]
  · rw [ht, hu]
    rcases h.at_place (p ++ [n]) with ⟨ht, hu⟩ | ⟨ht, hu⟩ | ⟨mode, data, data', ht, hu, -⟩
    · rw [ht, hu]
    · rw [ht, hu]
    · rw [ht, hu]
  · rw [ht, hu]

theorem walk_eq (h : Matches R t u) (p : Place) (ns : List Name) : t.walk p ns = u.walk p ns := by
  induction ns generalizing p with
  | nil => rfl
  | cons n ns ih =>
    rw [walk_cons, walk_cons, h.enter_eq]
    cases u.enter p n with
    | error e => rfl
    | ok q => exact ih q

theorem origin_eq (h : Matches R t u) (path : Path) : t.origin path = u.origin path := by
  unfold origin
  rw [h.workingDirectory]

theorem directory_iff (h : Matches R t u) (p : Place) :
    t.get? p = some .directory ↔ u.get? p = some .directory := by
  rcases h.at_place p with ⟨ht, hu⟩ | ⟨ht, hu⟩ | ⟨mode, data, data', ht, hu, -⟩
  · rw [ht, hu]
  · rw [ht, hu]
  · simp [ht, hu]

theorem slotIn_eq (h : Matches R t u) (before : List Name) (n : Name) (slashed : Bool)
    (path : Path) : t.slotIn before n slashed path = u.slotIn before n slashed path := by
  unfold slotIn
  rw [h.origin_eq, h.walk_eq]
  cases checkPath path with
  | error e => rfl
  | ok _ =>
    cases u.walk (u.origin path) before with
    | error e => rfl
    | ok d =>
      simp only [bind, Except.bind]
      rcases h.at_place d with ⟨ht, hu⟩ | ⟨ht, hu⟩ | ⟨mode, data, data', ht, hu, -⟩
      · rw [ht, hu]
      · rw [ht, hu]
      · rw [ht, hu]

theorem slot_eq (h : Matches R t u) (path : Path) : t.slot path = u.slot path := by
  cases hb : (Path.segments path).reverse.dropWhile (· = []) with
  | nil => simp only [slot, hb]
  | cons n backwards => rw [slot_of_reverse hb, slot_of_reverse hb, h.slotIn_eq]

theorem placeOf_eq (h : Matches R t u) (fault : Slot → Option FileError) (path : Path) :
    t.placeOf fault path = u.placeOf fault path := by
  unfold placeOf
  rw [h.slot_eq]
  cases u.slot path with
  | error e => rfl
  | ok s => simp only [h.directory_iff]

theorem locate_eq (h : Matches R t u) (path : Path) : t.locate path = u.locate path := by
  unfold locate
  rw [h.origin_eq, h.walk_eq]

/-- What paths lead to in the two trees matches. -/
theorem lookup (h : Matches R t u) (path : Path) :
    (∃ e, t.lookup path = .error e ∧ u.lookup path = .error e)
      ∨ ∃ x y, t.lookup path = .ok x ∧ u.lookup path = .ok y ∧ Entry.Matches R x y := by
  unfold FileTree.lookup
  rw [h.locate_eq]
  cases u.locate path with
  | error e => exact .inl ⟨e, rfl, rfl⟩
  | ok p =>
    simp only [bind, Except.bind]
    rcases h.at_place p with ⟨ht, hu⟩ | ⟨ht, hu⟩ | ⟨mode, data, data', ht, hu, content⟩
    · rw [ht, hu]
      exact .inl ⟨.notFound, rfl, rfl⟩
    · rw [ht, hu]
      exact .inr ⟨_, _, rfl, rfl, .directory⟩
    · rw [ht, hu]
      exact .inr ⟨_, _, rfl, rfl, .file content⟩

end Matches

end FileTree

end PbxAgent.Storage
