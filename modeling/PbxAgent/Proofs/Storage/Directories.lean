import PbxAgent.Proofs.Storage.Walk

/-!
# Trees with the same directories

The place that a path leads to, or would lead to if there were something at it, depends on the directories
alone (`goal?`), so that it stays through all that is done to files (`SameDirectories.goal?_eq`). What the
path leads to is what is at its goal (`lookup_of_goal?`). A change beside a path's last name is no change
for the path (`ChangedAt.lookup_eq`).
-/

namespace PbxAgent.Storage

namespace FileTree

variable {t u : FileTree} {p q r : Place} {ns : List Name} {path : Path}

/-! ## Where paths would lead -/

/-- Follows segments as a walk does, but for asking whether there is something at the end. -/
def goalFrom? (t : FileTree) : Place → List Name → Option Place
  | p, [] => some p
  | p, n :: ns =>
    if t.get? p = some .directory then
      if Path.isIdle n then goalFrom? t p ns
      else if n = Path.dotDot then goalFrom? t p.dropLast ns
      else if maxName < n.length then none
      else goalFrom? t (p ++ [n]) ns
    else none

/-- The place that a path leads to, or would if there were something at it. -/
def goal? (t : FileTree) (path : Path) : Option Place :=
  match checkPath path with
  | .error _ => none
  | .ok () => t.goalFrom? (t.origin path) (Path.segments path)

theorem goalFrom?_of_walk (h : t.walk p ns = .ok q) : t.goalFrom? p ns = some q := by
  induction ns generalizing p with
  | nil =>
    cases h
    rfl
  | cons n ns ih =>
    obtain ⟨r, hr, hw⟩ := walk_cons_eq_ok h
    obtain ⟨hp, -⟩ := enter_eq_ok hr
    rw [goalFrom?, if_pos hp]
    simp only [enter, hp] at hr
    split at hr
    next idle =>
      cases hr
      rw [if_pos idle]
      exact ih hw
    next idle =>
      rw [if_neg idle]
      split at hr
      next up =>
        cases hr
        rw [if_pos up]
        exact ih hw
      next up =>
        rw [if_neg up]
        split at hr
        · cases hr
        next short =>
          rw [if_neg short]
          split at hr
          · cases hr
          · cases hr
            exact ih hw

theorem goalFrom?_append (t : FileTree) (p : Place) (ns ms : List Name) :
    t.goalFrom? p (ns ++ ms) = (t.goalFrom? p ns).bind fun q => t.goalFrom? q ms := by
  induction ns generalizing p with
  | nil => rfl
  | cons n ns ih =>
    simp only [List.cons_append, goalFrom?, ih]
    split
    · split
      · rfl
      · split
        · rfl
        · split
          · rfl
          · rfl
    · rfl

/-- A walk falls short of its goal only if there is nothing at the goal. -/
theorem walk_of_goalFrom? (h : t.goalFrom? p ns = some q) :
    t.walk p ns = .ok q ∨ t.get? q = none ∧ t.walk p ns = .error .notFound := by
  induction ns generalizing p with
  | nil =>
    cases h
    exact .inl rfl
  | cons n ns ih =>
    rw [goalFrom?] at h
    split at h
    next hp =>
      rw [walk, hp]
      dsimp only
      split at h
      next idle =>
        rw [if_pos idle]
        exact ih h
      next idle =>
        rw [if_neg idle]
        split at h
        next up =>
          rw [if_pos up]
          exact ih h
        next up =>
          rw [if_neg up]
          split at h
          · cases h
          next short =>
            rw [if_neg short]
            cases hn : t.get? (p ++ [n]) with
            | some e => exact ih h
            | none =>
              -- From a place with nothing at it, no goal is farther on.
              cases ns with
              | nil =>
                cases h
                exact .inr ⟨hn, rfl⟩
              | cons m ns => simp [goalFrom?, hn] at h
    next => cases h

theorem goal?_of_locate (h : t.locate path = .ok p) : t.goal? path = some p := by
  obtain ⟨hc, hw⟩ := locate_eq_ok.1 h
  rw [goal?, hc]
  exact goalFrom?_of_walk hw

/-- What a path leads to is what is at its goal. -/
theorem lookup_of_goal? (h : t.goal? path = some p) :
    t.lookup path = match t.get? p with
      | none => .error .notFound
      | some e => .ok e := by
  unfold goal? at h
  unfold lookup locate
  cases hc : checkPath path with
  | error e =>
    rw [hc] at h
    cases h
  | ok _ =>
    rw [hc] at h
    rcases walk_of_goalFrom? h with hw | ⟨hnone, hw⟩
    · rw [ok_bind, hw, ok_bind]
      cases t.get? p <;> rfl
    · rw [ok_bind, hw, hnone]
      rfl

/-- A path without a goal leads nowhere. -/
theorem lookup_of_goal?_eq_none (h : t.goal? path = none) : ∃ e, t.lookup path = .error e := by
  cases hl : t.lookup path with
  | error e => exact ⟨e, rfl⟩
  | ok e =>
    obtain ⟨p, hlocate, -⟩ := lookup_eq_ok.1 hl
    rw [goal?_of_locate hlocate] at h
    cases h

/-! ## Trees with the same directories -/

/-- Trees with the same directories, whatever their files. -/
structure SameDirectories (t u : FileTree) : Prop where
  workingDirectory : t.workingDirectory = u.workingDirectory
  directory_iff : ∀ p, t.get? p = some .directory ↔ u.get? p = some .directory

namespace SameDirectories

theorem refl (t : FileTree) : SameDirectories t t where
  workingDirectory := rfl
  directory_iff _ := Iff.rfl

theorem symm (same : SameDirectories t u) : SameDirectories u t where
  workingDirectory := same.workingDirectory.symm
  directory_iff p := (same.directory_iff p).symm

theorem trans {w : FileTree} (same : SameDirectories t u) (same' : SameDirectories u w) :
    SameDirectories t w where
  workingDirectory := same.workingDirectory.trans same'.workingDirectory
  directory_iff p := (same.directory_iff p).trans (same'.directory_iff p)

/-- A file may be put where no directory was. -/
theorem set_file (hr : t.get? r ≠ some .directory) (mode : Nat) (data : Bytes) :
    SameDirectories t (t.set r (.file mode data)) where
  workingDirectory := rfl
  directory_iff p := by
    rcases t.get?_set_dichotomy (.file mode data) (ne_nil_of_get? hr) p with ⟨rfl, hp⟩ | ⟨-, hp⟩
    · rw [hp]
      exact iff_of_false hr nofun
    · rw [hp]

/-- What is no directory may be taken away. -/
theorem erase (hr : t.get? r ≠ some .directory) : SameDirectories t (t.erase r) where
  workingDirectory := rfl
  directory_iff p := by
    by_cases hp : p = r
    · subst hp
      rw [get?_erase_self (ne_nil_of_get? hr)]
      exact iff_of_false hr nofun
    · rw [get?_erase_ne hp]

theorem origin_eq (same : SameDirectories t u) (path : Path) : t.origin path = u.origin path := by
  rw [origin, origin, same.workingDirectory]

theorem goalFrom?_eq (same : SameDirectories t u) (p : Place) (ns : List Name) :
    t.goalFrom? p ns = u.goalFrom? p ns := by
  induction ns generalizing p with
  | nil => rfl
  | cons n ns ih => simp only [goalFrom?, ih, same.directory_iff p]

theorem goal?_eq (same : SameDirectories t u) (path : Path) : t.goal? path = u.goal? path := by
  unfold goal?
  rw [same.origin_eq, same.goalFrom?_eq]

/-- A walk that leads to something leads there in any tree with the same directories that has something
there. -/
theorem walk (same : SameDirectories t u) (h : t.walk p ns = .ok q) (hq : u.get? q ≠ none) :
    u.walk p ns = .ok q := by
  have hgoal := goalFrom?_of_walk h
  rw [same.goalFrom?_eq] at hgoal
  rcases walk_of_goalFrom? hgoal with hw | ⟨hnone, -⟩
  · exact hw
  · exact absurd hnone hq

theorem locate (same : SameDirectories t u) (h : t.locate path = .ok p) (hp : u.get? p ≠ none) :
    u.locate path = .ok p := by
  obtain ⟨hc, hw⟩ := locate_eq_ok.1 h
  rw [same.origin_eq] at hw
  exact locate_eq_ok.2 ⟨hc, same.walk hw hp⟩

end SameDirectories

/-! ## Changes at one place -/

/-- Trees that are alike but for what is at one place, which is a directory in both or in neither. -/
structure ChangedAt (r : Place) (t u : FileTree) : Prop extends SameDirectories t u where
  others : ∀ p, p ≠ r → u.get? p = t.get? p

namespace ChangedAt

theorem trans {w : FileTree} (changed : ChangedAt r t u) (changed' : ChangedAt r u w) :
    ChangedAt r t w where
  toSameDirectories := changed.toSameDirectories.trans changed'.toSameDirectories
  others p hp := (changed'.others p hp).trans (changed.others p hp)

theorem set_file (hr : t.get? r ≠ some .directory) (mode : Nat) (data : Bytes) :
    ChangedAt r t (t.set r (.file mode data)) where
  toSameDirectories := .set_file hr mode data
  others _ hp := get?_set_ne _ hp

theorem erase (hr : t.get? r ≠ some .directory) : ChangedAt r t (t.erase r) where
  toSameDirectories := .erase hr
  others _ hp := get?_erase_ne hp

/-- A change beside the last name of a path, in the same directory, makes no difference to what the path
leads to. -/
theorem lookup_eq {d : Place} {m n : Name} {before idle : List Name}
    (changed : ChangedAt (d ++ [m]) t u) (hd : t.get? d = some .directory)
    (hseg : Path.segments path = before ++ n :: idle) (hidle : ∀ i ∈ idle, Path.isIdle i = true)
    (hw : t.walk (t.origin path) before = .ok d) (hne : n ≠ m) :
    u.lookup path = t.lookup path := by
  -- From the directory, the last name does not lead to the place that has changed.
  have hget : ∀ q, q = d ∨ q = d.dropLast ∨ q = d ++ [n] → u.get? q = t.get? q := by
    intro q hq
    refine changed.others q ?_
    rintro rfl
    rcases hq with hq | hq | hq
    · simp at hq
    · have hlen := congrArg List.length hq
      simp only [List.length_append, List.length_singleton, List.length_dropLast] at hlen
      omega
    · simp [Ne.symm hne] at hq
  have hw' : u.walk (t.origin path) before = .ok d :=
    changed.walk hw (by rw [hget d (.inl rfl), hd]; exact Option.some_ne_none _)
  have henter := enter_congr (hget d (.inl rfl)) (hget (d ++ [n]) (.inr (.inr rfl)))
  refine lookup_congr (changed.origin_eq path).symm ?_ ?_
  · rw [hseg, walk_append, walk_append, hw', hw, ok_bind, ok_bind, walk_cons, walk_cons, henter]
    cases hr : t.enter d n with
    | error e => rfl
    | ok r =>
      have hr' := (enter_eq_ok hr).2
      exact walk_idle_congr (hget r (hr'.imp_right (.imp_right And.left))) hidle
  · intro q hq
    rw [hseg, walk_append, hw] at hq
    obtain ⟨r, hr, hq⟩ := walk_cons_eq_ok hq
    have hr' := (enter_eq_ok hr).2
    rw [eq_of_walk_idle hidle hq]
    exact hget r (hr'.imp_right (.imp_right And.left))

end ChangedAt

/-- A path that means nothing leads back to where it starts, whatever files there are. -/
theorem SameDirectories.lookup_of_idle (same : SameDirectories t u)
    (hd : t.get? (t.origin path) = some .directory)
    (h : ∀ n ∈ Path.segments path, Path.isIdle n = true) : u.lookup path = t.lookup path := by
  have hd' := (same.directory_iff _).1 hd
  refine lookup_congr (same.origin_eq path).symm ?_ ?_
  · rw [walk_idle hd h, walk_idle hd' h]
  · intro q hq
    rw [eq_of_walk_idle h hq, hd, hd']

end FileTree

end PbxAgent.Storage
