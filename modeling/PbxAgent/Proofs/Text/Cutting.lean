import PbxAgent.Bytes

/-!
# Cutting byte strings at a mark

A byte string is cut where a mark stands first (`cut`), or wherever one stands (`splitBy`). Parts that
do not have the mark's first byte come back as they were: one part in front of anything (`cut_append`),
all of them with marks between (`splitBy_intercalate`), and parts that are lines up to the first empty
one (`cut_lines`).
-/

namespace PbxAgent.Bytes

/-! ## Cutting once -/

/-- What stands in front of the first place where a mark stands, and what stands behind the mark. -/
def cut (mark : Bytes) : Bytes → Option (Bytes × Bytes)
  | [] => none
  | c :: r =>
    if mark.isPrefixOf (c :: r) then some ([], r.drop (mark.length - 1))
    else (cut mark r).map fun (before, behind) => (c :: before, behind)

theorem length_cut {mark b before behind : Bytes} (h : cut mark b = some (before, behind)) :
    behind.length < b.length := by
  induction b generalizing before with
  | nil => cases h
  | cons c r ih =>
    rw [cut] at h
    split at h
    · cases h
      rw [List.length_drop, List.length_cons]
      omega
    · obtain ⟨⟨before, behind⟩, hr, h⟩ := Option.map_eq_some_iff.1 h
      cases h
      exact Nat.lt_succ_of_lt (ih hr)

variable {c d : UInt8} {m : Bytes}

theorem cut_self (c : UInt8) (m r : Bytes) : cut (c :: m) (c :: m ++ r) = some ([], r) := by
  have hprefix : (c :: m).isPrefixOf (c :: (m ++ r)) = true :=
    List.isPrefixOf_iff_prefix.2 (List.prefix_append (c :: m) r)
  rw [List.cons_append, cut, if_pos hprefix]
  simp

theorem cut_cons_of_not_prefix (h : (c :: m).isPrefixOf (d :: r) = false) :
    cut (c :: m) (d :: r) = (cut (c :: m) r).map fun (before, behind) => (d :: before, behind) := by
  rw [cut, h, if_neg Bool.false_ne_true]

/-- A mark does not stand where its first byte does not. -/
theorem cut_append_of_not_mem {b : Bytes} (h : c ∉ b) (r : Bytes) :
    cut (c :: m) (b ++ r)
      = (cut (c :: m) r).map fun (before, behind) => (b ++ before, behind) := by
  induction b with
  | nil => simp
  | cons d b ih =>
    rw [List.mem_cons, not_or] at h
    have hprefix : (c :: m).isPrefixOf (d :: (b ++ r)) = false := by
      simp [List.isPrefixOf, h.1]
    rw [List.cons_append, cut_cons_of_not_prefix hprefix, ih h.2, Option.map_map]
    rfl

theorem cut_append {b : Bytes} (h : c ∉ b) (r : Bytes) :
    cut (c :: m) (b ++ (c :: m ++ r)) = some (b, r) := by
  rw [cut_append_of_not_mem h, cut_self]
  simp

/-! ## Cutting everywhere -/

/-- The parts between marks; there is always one more than marks. -/
def splitBy (mark b : Bytes) : List Bytes :=
  match _cut : cut mark b with
  | none => [b]
  | some (before, behind) => before :: splitBy mark behind
termination_by b.length
decreasing_by exact length_cut _cut

theorem splitBy_of_cut {mark b before behind : Bytes} (h : cut mark b = some (before, behind)) :
    splitBy mark b = before :: splitBy mark behind := by
  rw [splitBy]
  split <;> simp_all

theorem splitBy_of_not_mem {b : Bytes} (h : c ∉ b) : splitBy (c :: m) b = [b] := by
  have hcut : cut (c :: m) b = none := by
    simpa [cut] using cut_append_of_not_mem (m := m) h []
  rw [splitBy]
  split <;> simp_all

/-- Parts with marks between them are found again. -/
theorem splitBy_intercalate {parts : List Bytes} (h : ∀ p ∈ parts, c ∉ p) (nonempty : parts ≠ []) :
    splitBy (c :: m) ((c :: m).intercalate parts) = parts := by
  induction parts with
  | nil => exact absurd rfl nonempty
  | cons p parts ih =>
    rw [List.forall_mem_cons] at h
    cases parts with
    | nil => rw [List.intercalate_singleton, splitBy_of_not_mem h.1]
    | cons q parts =>
      rw [List.intercalate_cons_cons, List.append_assoc, splitBy_of_cut (cut_append h.1 _),
        ih h.2 (List.cons_ne_nil q parts)]

/-! ## Lines up to an empty one -/

/-- Of lines with one mark behind each, the first that is empty is found. -/
theorem cut_lines (hm : c ∉ m) {lines : List Bytes} (h : ∀ l ∈ lines, l ≠ [] ∧ c ∉ l)
    (nonempty : lines ≠ []) (r : Bytes) :
    cut (c :: m ++ c :: m) (lines.flatMap (· ++ c :: m) ++ (c :: m ++ r))
      = some ((c :: m).intercalate lines, r) := by
  induction lines with
  | nil => exact absurd rfl nonempty
  | cons l lines ih =>
    rw [List.forall_mem_cons] at h
    obtain ⟨⟨-, hl⟩, hlines⟩ := h
    cases lines with
    | nil =>
      have hcut := cut_append (m := m ++ c :: m) hl r
      simpa [List.append_assoc] using hcut
    | cons k lines =>
      obtain ⟨⟨hk, hck⟩, -⟩ := List.forall_mem_cons.1 hlines
      obtain ⟨d, k, rfl⟩ := List.exists_cons_of_ne_nil hk
      have hcd : c ≠ d := fun h => hck (h ▸ List.mem_cons_self)
      -- The mark behind this line stands once only, for the next line does not begin with one.
      have honce (rest : Bytes) : (c :: m ++ c :: m).isPrefixOf (c :: (m ++ d :: rest)) = false := by
        rw [← Bool.not_eq_true, List.isPrefixOf_iff_prefix]
        intro h
        rw [← List.cons_append, List.prefix_append_right_inj, List.cons_prefix_cons] at h
        exact hcd h.1
      have hnext := ih hlines (List.cons_ne_nil _ lines)
      simp only [List.flatMap_cons, List.append_assoc, List.cons_append] at hnext honce ⊢
      rw [cut_append_of_not_mem hl, cut_cons_of_not_prefix (honce _), cut_append_of_not_mem hm,
        hnext, List.intercalate_cons_cons]
      simp

end PbxAgent.Bytes
