import PbxAgent.Proofs.Storage.Directories

/-!
# Slots

The slot of a path is the place that its last name stands for, in a directory that is there. What the
path leads to is what is in the slot (`lookup_of_slot`), and a file put elsewhere does not move it
(`slot_set_file`, `slot_set_of_not_mem`).
-/

namespace PbxAgent.Storage

namespace FileTree

/-! ## Slots that can hold a file -/

/-- Whether a file can have the name. -/
structure IsFileName (n : Name) : Prop where
  ne_nil : n ≠ []
  ne_dot : n ≠ Path.dot
  ne_dotDot : n ≠ Path.dotDot
  short : n.length ≤ maxName

/-- Whether a file can be in the slot: it has the name for it, with no slash behind. -/
structure Slot.HoldsFile (s : Slot) : Prop extends IsFileName s.name where
  unslashed : s.slashed = false

namespace Slot.HoldsFile

variable {s : Slot}

theorem isNamed (h : s.HoldsFile) : s.isNamed = true := by
  simp [Slot.isNamed, h.ne_nil, h.ne_dot, h.ne_dotDot]

theorem not_isIdle (h : s.HoldsFile) : Path.isIdle s.name = false := by
  simp [Path.isIdle, h.ne_nil, h.ne_dot]

end Slot.HoldsFile

theorem Slot.place_ne_nil (s : Slot) : s.place ≠ [] := by
  simp [Slot.place]

variable {t : FileTree} {path : Path} {s : Slot} {r : Place} {n : Name} {before : List Name}

/-! ## Finding slots -/

/-- Looks in a directory for the slot of a name. -/
def slotIn (t : FileTree) (before : List Name) (n : Name) (slashed : Bool) (path : Path) :
    Except FileError Slot := do
  checkPath path
  let directory ← t.walk (t.origin path) before
  match t.get? directory with
  | some .directory => return ⟨directory, n, slashed⟩
  | _ => .error .notDirectory

theorem slot_of_reverse {backwards : List Name}
    (h : (Path.segments path).reverse.dropWhile (· = []) = n :: backwards) :
    t.slot path
      = t.slotIn backwards.reverse n ((Path.segments path).reverse.head? = some []) path := by
  unfold slot slotIn
  dsimp only
  generalize (Path.segments path).reverse.dropWhile (· = []) = parts at h
  subst h
  rfl

theorem slot_of_segments (h : Path.segments path = before ++ [n]) (hn : n ≠ []) :
    t.slot path = t.slotIn before n false path := by
  have hr : (Path.segments path).reverse = n :: before.reverse := by simp [h]
  have hdrop : (Path.segments path).reverse.dropWhile (· = []) = n :: before.reverse := by
    rw [hr]
    simp [hn]
  rw [slot_of_reverse hdrop, hr]
  simp [hn]

theorem slotIn_eq_ok {slashed : Bool} (h : t.slotIn before n slashed path = .ok s) :
    checkPath path = .ok () ∧ t.walk (t.origin path) before = .ok s.directory
      ∧ t.get? s.directory = some .directory ∧ s.name = n ∧ s.slashed = slashed := by
  unfold slotIn at h
  obtain ⟨_, hc, h⟩ := bind_eq_ok.1 h
  obtain ⟨d, hw, h⟩ := bind_eq_ok.1 h
  split at h
  · rename_i hd
    cases h
    exact ⟨hc, hw, hd, rfl, rfl⟩
  · cases h

theorem slotIn_of_walk (slashed : Bool) (hc : checkPath path = .ok ()) {d : Place}
    (hw : t.walk (t.origin path) before = .ok d) (hd : t.get? d = some .directory) :
    t.slotIn before n slashed path = .ok ⟨d, n, slashed⟩ := by
  unfold slotIn
  rw [hc, hw]
  simp only [bind, Except.bind, hd]
  rfl

/-- Whether there is a slot does not depend on the name that is looked for. -/
theorem slotIn_alike {m : Name} {path' : Path} (hc : checkPath path = checkPath path')
    (ha : Path.isAbsolute path = Path.isAbsolute path') (slashed : Bool) :
    (∃ e, t.slotIn before n slashed path = .error e ∧ t.slotIn before m slashed path' = .error e)
      ∨ ∃ s r, t.slotIn before n slashed path = .ok s ∧ t.slotIn before m slashed path' = .ok r := by
  have horigin : t.origin path = t.origin path' := by rw [origin, origin, ha]
  unfold slotIn
  rw [hc, horigin]
  cases checkPath path' with
  | error e => exact .inl ⟨e, rfl, rfl⟩
  | ok _ =>
    cases t.walk (t.origin path') before with
    | error e => exact .inl ⟨e, rfl, rfl⟩
    | ok d =>
      simp only [bind, Except.bind]
      cases t.get? d with
      | none => exact .inl ⟨.notDirectory, rfl, rfl⟩
      | some e =>
        cases e with
        | file mode data => exact .inl ⟨.notDirectory, rfl, rfl⟩
        | directory => exact .inr ⟨_, _, rfl, rfl⟩

/-- A slot that can hold a file is the last segment of its path, in a directory that is there. -/
theorem slot_eq_ok (h : t.slot path = .ok s) (hs : s.HoldsFile) :
    checkPath path = .ok () ∧ t.get? s.directory = some .directory
      ∧ ∃ before, Path.segments path = before ++ [s.name]
        ∧ t.walk (t.origin path) before = .ok s.directory := by
  cases hb : (Path.segments path).reverse.dropWhile (· = []) with
  | nil =>
    -- A path of slashes alone has a slot without a name.
    simp only [slot, hb] at h
    obtain ⟨_, -, h⟩ := bind_eq_ok.1 h
    cases h
    exact absurd rfl hs.ne_nil
  | cons m backwards =>
    rw [slot_of_reverse hb] at h
    obtain ⟨hc, hw, hd, hn, hsl⟩ := slotIn_eq_ok h
    refine ⟨hc, hd, backwards.reverse, ?_, hw⟩
    have hhead : (Path.segments path).reverse.head? ≠ some [] := by
      rw [hs.unslashed] at hsl
      simpa using hsl.symm
    have hdrop : (Path.segments path).reverse = m :: backwards := by
      rw [← hb]
      cases hrev : (Path.segments path).reverse with
      | nil => rfl
      | cons x xs =>
        have hx : x ≠ [] := by
          rintro rfl
          exact hhead (by rw [hrev]; rfl)
        simp [hx]
    rw [hn, ← List.reverse_reverse (Path.segments path), hdrop, List.reverse_cons]

/-! ## What is in a slot -/

/-- A path leads to its slot if there is something in it. -/
theorem locate_of_slot (h : t.slot path = .ok s) (hs : s.HoldsFile) :
    t.locate path = match t.get? s.place with
      | none => .error .notFound
      | some _ => .ok s.place := by
  obtain ⟨hc, hd, before, hseg, hw⟩ := slot_eq_ok h hs
  rw [locate, hc, hseg]
  show t.walk (t.origin path) (before ++ [s.name]) = _
  rw [walk_append, hw]
  show t.walk s.directory [s.name] = _
  rw [walk_singleton, enter_name hd hs.not_isIdle hs.ne_dotDot hs.short]
  rfl

theorem lookup_of_slot (h : t.slot path = .ok s) (hs : s.HoldsFile) :
    t.lookup path = match t.get? s.place with
      | none => .error .notFound
      | some e => .ok e := by
  rw [lookup, locate_of_slot h hs]
  cases hg : t.get? s.place with
  | none => rfl
  | some e =>
    simp only [bind, Except.bind, hg]
    rfl

/-- The place of its slot is where a path would lead. -/
theorem goal?_of_slot (h : t.slot path = .ok s) (hs : s.HoldsFile) : t.goal? path = some s.place := by
  obtain ⟨hc, hd, before, hseg, hw⟩ := slot_eq_ok h hs
  rw [goal?, hc, hseg]
  show t.goalFrom? (t.origin path) (before ++ [s.name]) = _
  rw [goalFrom?_append, goalFrom?_of_walk hw]
  show t.goalFrom? s.directory [s.name] = _
  simp only [goalFrom?, hd, hs.not_isIdle, hs.ne_dotDot, Nat.not_lt.2 hs.short, if_true, if_false,
    Bool.false_eq_true]
  rfl

/-! ## Slots in a changed tree -/

/-- A slot that can hold a file is the same in any tree with the same directories. -/
theorem SameDirectories.slot {u : FileTree} (same : SameDirectories t u) (h : t.slot path = .ok s)
    (hs : s.HoldsFile) : u.slot path = .ok s := by
  obtain ⟨hc, hd, before, hseg, hw⟩ := slot_eq_ok h hs
  rw [same.directory_iff] at hd
  rw [same.origin_eq] at hw
  have hwalk : u.walk (u.origin path) before = .ok s.directory :=
    same.walk hw (by rw [hd]; exact Option.some_ne_none _)
  rw [slot_of_segments hseg hs.ne_nil, slotIn_of_walk false hc hwalk hd, ← hs.unslashed]

/-- A file put where no directory was leaves the slots that can hold one. -/
theorem slot_set_file (hr : t.get? r ≠ some .directory) (mode : Nat) (data : Bytes)
    (h : t.slot path = .ok s) (hs : s.HoldsFile) :
    (t.set r (.file mode data)).slot path = .ok s :=
  (SameDirectories.set_file hr mode data).slot h hs

theorem not_mem_origin (hw : n ∉ t.workingDirectory) (path : Path) : n ∉ t.origin path := by
  unfold origin
  split
  · exact List.not_mem_nil
  · exact hw

/-- An entry at a place with a name that the path does not have leaves its slot, if there is one. -/
theorem slot_set_of_not_mem (hr : n ∈ r) (e : Entry) (hw : n ∉ t.workingDirectory)
    (hp : n ∉ Path.segments path) : (t.set r e).slot path = t.slot path := by
  have horigin := not_mem_origin hw path
  cases hb : (Path.segments path).reverse.dropWhile (· = []) with
  | nil => simp only [slot, hb]
  | cons m backwards =>
    have hbefore : n ∉ backwards.reverse := by
      intro hn
      refine hp ?_
      rw [← List.mem_reverse]
      refine List.dropWhile_subset (· = []) ?_
      rw [hb]
      exact List.mem_cons_of_mem _ (List.mem_reverse.1 hn)
    have hwalk := walk_set_of_not_mem (t := t) hr e horigin hbefore
    rw [slot_of_reverse hb, slot_of_reverse hb]
    unfold slotIn
    show (checkPath path >>= fun _ => (t.set r e).walk (t.origin path) backwards.reverse >>= _) = _
    rw [hwalk]
    cases hd : t.walk (t.origin path) backwards.reverse with
    | error x => rfl
    | ok d =>
      have hdr : d ≠ r := by
        rintro rfl
        exact not_mem_of_walk horigin hbefore hd hr
      simp only [bind, Except.bind, get?_set_ne e hdr]

end FileTree

end PbxAgent.Storage
