import PbxAgent.Proofs.Fallible
import PbxAgent.Proofs.Storage.Segments
import PbxAgent.Storage.FileTree

/-!
# Walks through file trees

Where a path leads is decided by the directories on the way (`walk_append`), and segments without a meaning
lead back to where they start (`walk_idle`). A file takes no walk off its way if its name is not among the
names walked (`walk_set_of_not_mem`).
-/

namespace PbxAgent.Storage

namespace FileTree

variable {t : FileTree} {p q r : Place} {n : Name} {ns : List Name}

/-! ## Entries -/

@[simp] theorem get?_nil (t : FileTree) : t.get? [] = some .directory := by
  rw [get?, if_pos rfl]

theorem ne_nil_of_get? (h : t.get? p ≠ some .directory) : p ≠ [] := by
  rintro rfl
  exact h t.get?_nil

/-- The later of two entries put at one place stays. -/
theorem set_set (t : FileTree) (p : Place) (e f : Entry) : (t.set p e).set p f = t.set p f := by
  unfold set
  congr 1
  simp

theorem get?_set_dichotomy (t : FileTree) {p : Place} (e : Entry) (hp : p ≠ []) (q : Place) :
    (q = p ∧ (t.set p e).get? q = some e) ∨ (q ≠ p ∧ (t.set p e).get? q = t.get? q) := by
  by_cases h : q = p
  · subst h
    exact .inl ⟨rfl, get?_set_self e hp⟩
  · exact .inr ⟨h, get?_set_ne e h⟩

theorem get?_of_erase {e : Entry} (h : (t.erase r).get? p = some e) : t.get? p = some e := by
  by_cases hpr : p = r
  · subst hpr
    by_cases hnil : p = []
    · rw [hnil, get?_nil] at h ⊢
      exact h
    · rw [get?_erase_self hnil] at h
      cases h
  · rwa [get?_erase_ne hpr] at h

/-! ## One name -/

/-- Goes by one name from a directory. -/
def enter (t : FileTree) (p : Place) (n : Name) : Except FileError Place :=
  match t.get? p with
  | none => .error .notFound
  | some (.file ..) => .error .notDirectory
  | some .directory =>
    if Path.isIdle n then .ok p
    else if n = Path.dotDot then .ok p.dropLast
    else if maxName < n.length then .error .nameTooLong
    else match t.get? (p ++ [n]) with
    | none => .error .notFound
    | some _ => .ok (p ++ [n])

theorem walk_cons (t : FileTree) (p : Place) (n : Name) (ns : List Name) :
    t.walk p (n :: ns) = t.enter p n >>= fun q => t.walk q ns := by
  rw [walk, enter]
  cases t.get? p with
  | none => rfl
  | some e =>
    cases e with
    | file mode data => rfl
    | directory =>
      dsimp only
      split
      · rfl
      · split
        · rfl
        · split
          · rfl
          · cases t.get? (p ++ [n]) <;> rfl

/-- What a successful step by one name says: it stays, goes up, or goes down to something there. -/
theorem enter_eq_ok (h : t.enter p n = .ok q) :
    t.get? p = some .directory ∧ (q = p ∨ q = p.dropLast ∨
      q = p ++ [n] ∧ Path.isIdle n = false ∧ n ≠ Path.dotDot ∧ n.length ≤ maxName
        ∧ ∃ e, t.get? (p ++ [n]) = some e) := by
  unfold enter at h
  cases hp : t.get? p with
  | none => simp [hp] at h
  | some e =>
    cases e with
    | file mode data => simp [hp] at h
    | directory =>
      refine ⟨rfl, ?_⟩
      simp only [hp] at h
      split at h
      · exact .inl (Except.ok.inj h).symm
      · rename_i idle
        split at h
        · exact .inr (.inl (Except.ok.inj h).symm)
        · rename_i up
          split at h
          · cases h
          · rename_i long
            cases hn : t.get? (p ++ [n]) with
            | none => simp [hn] at h
            | some e =>
              rw [hn] at h
              exact .inr (.inr ⟨(Except.ok.inj h).symm, by simpa using idle, up, by omega, e, rfl⟩)

/-- A step depends on what is at its two ends only. -/
theorem enter_congr {u : FileTree} (hp : u.get? p = t.get? p)
    (hn : u.get? (p ++ [n]) = t.get? (p ++ [n])) : u.enter p n = t.enter p n := by
  unfold enter
  rw [hp, hn]

theorem enter_idle (hp : t.get? p = some .directory) (h : Path.isIdle n = true) :
    t.enter p n = .ok p := by
  unfold enter
  rw [hp]
  exact if_pos h

/-- Goes down from a directory by a name. -/
theorem enter_name (hp : t.get? p = some .directory) (idle : Path.isIdle n = false)
    (up : n ≠ Path.dotDot) (short : n.length ≤ maxName) :
    t.enter p n = match t.get? (p ++ [n]) with
      | none => .error .notFound
      | some _ => .ok (p ++ [n]) := by
  unfold enter
  simp only [hp, idle, up, Nat.not_lt.2 short, if_false, Bool.false_eq_true]

/-! ## Walks -/

theorem walk_append (t : FileTree) (p : Place) (ns ms : List Name) :
    t.walk p (ns ++ ms) = t.walk p ns >>= fun q => t.walk q ms := by
  induction ns generalizing p with
  | nil => rfl
  | cons n ns ih => simp only [List.cons_append, walk_cons, ih, bind_assoc]

theorem walk_singleton (t : FileTree) (p : Place) (n : Name) : t.walk p [n] = t.enter p n := by
  rw [walk_cons]
  cases t.enter p n <;> rfl

/-- A walk that goes on from where another one led. -/
theorem walk_cons_eq_ok (h : t.walk p (n :: ns) = .ok q) :
    ∃ r, t.enter p n = .ok r ∧ t.walk r ns = .ok q := by
  rw [walk_cons] at h
  exact bind_eq_ok.1 h

/-- Segments that mean nothing lead from a directory back to it. -/
theorem walk_idle (hp : t.get? p = some .directory) (h : ∀ n ∈ ns, Path.isIdle n = true) :
    t.walk p ns = .ok p := by
  induction ns with
  | nil => rfl
  | cons n ns ih =>
    rw [walk_cons, enter_idle hp (h n List.mem_cons_self)]
    exact ih fun m hm => h m (List.mem_cons_of_mem _ hm)

theorem walk_append_eq_ok {ms : List Name} (h : t.walk p (ns ++ ms) = .ok q) :
    ∃ r, t.walk p ns = .ok r ∧ t.walk r ms = .ok q := by
  rw [walk_append] at h
  exact bind_eq_ok.1 h

theorem eq_of_walk_idle (h : ∀ n ∈ ns, Path.isIdle n = true) (hw : t.walk p ns = .ok q) :
    q = p := by
  induction ns with
  | nil =>
    cases hw
    rfl
  | cons n ns ih =>
    obtain ⟨r, hr, hw⟩ := walk_cons_eq_ok hw
    rw [enter_idle (enter_eq_ok hr).1 (h n List.mem_cons_self)] at hr
    cases hr
    exact ih (fun m hm => h m (List.mem_cons_of_mem _ hm)) hw

/-- Over segments that mean nothing, a walk depends on what is where it starts. -/
theorem walk_idle_congr {u : FileTree} (hp : u.get? p = t.get? p)
    (h : ∀ n ∈ ns, Path.isIdle n = true) : u.walk p ns = t.walk p ns := by
  induction ns with
  | nil => rfl
  | cons n ns ih =>
    have hn := h n List.mem_cons_self
    have henter : u.enter p n = t.enter p n := by
      unfold enter
      simp only [hp, hn, if_true]
    rw [walk_cons, walk_cons, henter]
    cases hq : t.enter p n with
    | error e => rfl
    | ok q =>
      rw [enter_idle (enter_eq_ok hq).1 hn] at hq
      cases hq
      exact ih fun m hm => h m (List.mem_cons_of_mem _ hm)

/-- To a directory, segments without a meaning at the end make no difference. -/
theorem walk_of_trimEnd {ms : List Name} (hq : t.get? q = some .directory)
    (h : t.walk p ns = .ok q) (htrim : Path.trimEnd ms = Path.trimEnd ns) :
    t.walk p ms = .ok q := by
  obtain ⟨is, hns, hidle⟩ := Path.exists_trimEnd ns
  obtain ⟨js, hms, hjdle⟩ := Path.exists_trimEnd ms
  rw [hns] at h
  obtain ⟨r, hr, hw⟩ := walk_append_eq_ok h
  have hrq := eq_of_walk_idle hidle hw
  rw [hms, htrim, walk_append, hr, ← hrq]
  exact walk_idle hq hjdle

/-- A walk goes by places made of where it starts and the names walked. -/
theorem not_mem_of_walk (hp : n ∉ p) (hns : n ∉ ns) (h : t.walk p ns = .ok q) : n ∉ q := by
  induction ns generalizing p with
  | nil =>
    cases h
    exact hp
  | cons m ns ih =>
    rw [List.mem_cons, not_or] at hns
    obtain ⟨r, hr, h⟩ := walk_cons_eq_ok h
    refine ih ?_ hns.2 h
    obtain ⟨-, rfl | rfl | ⟨rfl, -⟩⟩ := enter_eq_ok hr
    · exact hp
    · exact fun hm => hp (List.dropLast_subset _ hm)
    · rw [List.mem_append, List.mem_singleton, not_or]
      exact ⟨hp, hns.1⟩

/-- An entry at a place with a name that is not walked makes no difference. -/
theorem walk_set_of_not_mem (hr : n ∈ r) (e : Entry) (hp : n ∉ p) (hns : n ∉ ns) :
    (t.set r e).walk p ns = t.walk p ns := by
  -- No place on the way has the name among its own, as the one that is changed has.
  have hget : ∀ {q : Place}, n ∉ q → (t.set r e).get? q = t.get? q := by
    intro q hq
    refine get?_set_ne e ?_
    rintro rfl
    exact hq hr
  induction ns generalizing p with
  | nil => rfl
  | cons m ns ih =>
    rw [List.mem_cons, not_or] at hns
    have hdown : n ∉ p ++ [m] := by
      rw [List.mem_append, List.mem_singleton, not_or]
      exact ⟨hp, hns.1⟩
    rw [walk_cons, walk_cons, enter_congr (hget hp) (hget hdown)]
    cases hm : t.enter p m with
    | error x => rfl
    | ok q =>
      have hwalk : t.walk p [m] = .ok q := by rw [walk_singleton, hm]
      exact ih (not_mem_of_walk hp (by simpa using hns.1) hwalk) hns.2

/-! ## Paths -/

variable {path : Path}

theorem locate_eq_ok : t.locate path = .ok p ↔
    checkPath path = .ok () ∧ t.walk (t.origin path) (Path.segments path) = .ok p := by
  rw [locate, bind_eq_ok, exists_unit_eq_ok]

theorem lookup_eq_ok {e : Entry} :
    t.lookup path = .ok e ↔ ∃ p, t.locate path = .ok p ∧ t.get? p = some e := by
  rw [lookup, bind_eq_ok]
  refine exists_congr fun p => and_congr_right fun _ => ?_
  cases t.get? p with
  | none => exact iff_of_false nofun nofun
  | some x => rw [pure_eq_ok, Option.some.injEq]

theorem lookup_congr {u : FileTree} (origin : u.origin path = t.origin path)
    (walk : u.walk (t.origin path) (Path.segments path)
      = t.walk (t.origin path) (Path.segments path))
    (get : ∀ q, t.walk (t.origin path) (Path.segments path) = .ok q → u.get? q = t.get? q) :
    u.lookup path = t.lookup path := by
  unfold lookup locate
  rw [origin, walk]
  cases checkPath path with
  | error e => rfl
  | ok _ =>
    cases hq : t.walk (t.origin path) (Path.segments path) with
    | error e => rfl
    | ok q =>
      rw [ok_bind, ok_bind, ok_bind, get q hq]

end FileTree

end PbxAgent.Storage
