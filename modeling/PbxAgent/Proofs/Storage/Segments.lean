import Mathlib.Data.List.DropRight
import PbxAgent.Storage.Path

/-!
# Segments of paths

Slashes cut a path into segments, and nothing else does (`segments_append_slash`). A name put in the
directory of a path is in the same directory as the path's last name: up to segments without a
meaning, the same names lead there (`trimEnd_segments_directory`, `segments_child`).
-/

namespace PbxAgent.Storage

namespace Path

variable {p : Path} {n first : Name} {ns ms : List Name}

/-! ## Slashes -/

theorem segments_append_slash (p q : Path) :
    segments (p ++ slash :: q) = segments p ++ segments q := by
  induction p with
  | nil => rfl
  | cons c r ih =>
    rw [List.cons_append, segments, segments, ih]
    split
    · rfl
    · cases h : segments r with
      | nil => exact absurd h (segments_ne_nil r)
      | cons s ss => rfl

theorem segments_of_not_mem (h : slash ∉ n) : segments n = [n] := by
  induction n with
  | nil => rfl
  | cons c r ih =>
    rw [List.mem_cons, not_or] at h
    rw [segments, if_neg (Ne.symm h.1), ih h.2]

theorem slash_not_mem (h : n ∈ segments p) : slash ∉ n := by
  induction p generalizing n with
  | nil =>
    rw [segments, List.mem_singleton] at h
    rw [h]
    exact List.not_mem_nil
  | cons c r ih =>
    rw [segments] at h
    split at h
    · rcases List.mem_cons.1 h with rfl | h
      · exact List.not_mem_nil
      · exact ih h
    · rename_i hc
      cases hr : segments r with
      | nil => exact absurd hr (segments_ne_nil r)
      | cons s ss =>
        rw [hr] at h ih
        rcases List.mem_cons.1 h with rfl | h
        · rw [List.mem_cons, not_or]
          exact ⟨Ne.symm hc, ih List.mem_cons_self⟩
        · exact ih (List.mem_cons_of_mem _ h)

theorem segments_join (hne : ns ≠ []) (h : ∀ n ∈ ns, slash ∉ n) : segments (join ns) = ns := by
  induction ns with
  | nil => exact absurd rfl hne
  | cons n ns ih =>
    have hn := segments_of_not_mem (h n List.mem_cons_self)
    cases ns with
    | nil => exact hn
    | cons m ns =>
      have hr := ih (List.cons_ne_nil m ns) fun x hx => h x (List.mem_cons_of_mem _ hx)
      rw [join, segments_append_slash, hn, hr, List.singleton_append]

/-! ## Where a path starts -/

theorem isAbsolute_of_not_mem (h : slash ∉ p) : isAbsolute p = false := by
  cases p with
  | nil => rfl
  | cons c r =>
    rw [List.mem_cons, not_or] at h
    simp [isAbsolute, Ne.symm h.1]

/-- A path of several segments is absolute if the first is empty. -/
theorem isAbsolute_of_segments (h : segments p = first :: ns) (hns : ns ≠ []) :
    isAbsolute p = decide (first = []) := by
  have hfirst : slash ∉ first := slash_not_mem (p := p) (by rw [h]; exact List.mem_cons_self)
  obtain ⟨m, ms, rfl⟩ := List.exists_cons_of_ne_nil hns
  have hp : p = first ++ slash :: join (m :: ms) := by
    rw [← join_segments p, h, join]
  cases first with
  | nil =>
    rw [hp]
    rfl
  | cons c r =>
    rw [List.mem_cons, not_or] at hfirst
    simp [hp, isAbsolute, Ne.symm hfirst.1]

/-! ## Segments without a meaning at the end -/

theorem trimEnd_append_idle (h : ∀ n ∈ ms, isIdle n = true) :
    trimEnd (ns ++ ms) = trimEnd ns := by
  have hall : ∀ n ∈ ms.reverse, isIdle n = true := fun n hn => h n (List.mem_reverse.1 hn)
  rw [trimEnd, List.reverse_append, List.dropWhile_append_of_pos hall, trimEnd]

theorem trimEnd_concat (h : isIdle n = false) : trimEnd (ns ++ [n]) = ns ++ [n] :=
  List.rdropWhile_concat_neg isIdle ns n (by simp [h])

theorem trimEnd_of_idle (h : ∀ n ∈ ms, isIdle n = true) : trimEnd ms = [] := by
  show trimEnd ([] ++ ms) = trimEnd []
  exact trimEnd_append_idle h

theorem trimEnd_append_cons (hn : isIdle n = false) (h : ∀ m ∈ ms, isIdle m = true) :
    trimEnd (ns ++ n :: ms) = ns ++ [n] := by
  rw [List.append_cons, trimEnd_append_idle h, trimEnd_concat hn]

/-- What is trimmed means nothing. -/
theorem exists_trimEnd (ns : List Name) :
    ∃ ms, ns = trimEnd ns ++ ms ∧ ∀ n ∈ ms, isIdle n = true :=
  ⟨ns.rtakeWhile isIdle, List.rdropWhile_append_rtakeWhile.symm,
    fun _ hn => List.mem_rtakeWhile_imp hn⟩

theorem trimEnd_cons_of_trimEnd (first : Name) (ns : List Name) :
    trimEnd (first :: ns) = trimEnd (first :: trimEnd ns) := by
  obtain ⟨ms, hns, hidle⟩ := exists_trimEnd ns
  conv_lhs => rw [hns, ← List.cons_append]
  exact trimEnd_append_idle hidle

/-! ## The last name of a path -/

/-- The last segment with a meaning. -/
def lastName? (p : Path) : Option Name :=
  (trimEnd (segments p)).getLast?

/-- Behind the last name there are only segments without a meaning. -/
theorem segments_of_lastName? (h : lastName? p = some n) :
    ∃ ns ms, segments p = ns ++ n :: ms ∧ isIdle n = false ∧ ∀ m ∈ ms, isIdle m = true := by
  obtain ⟨ms, hsegments, hidle⟩ := exists_trimEnd (segments p)
  obtain ⟨ns, htrim⟩ := List.getLast?_eq_some_iff.1 h
  have hne : trimEnd (segments p) ≠ [] := by simp [htrim]
  have hn : ¬ isIdle ((trimEnd (segments p)).getLast hne) = true :=
    List.rdropWhile_last_not isIdle (segments p) hne
  refine ⟨ns, ms, ?_, ?_, hidle⟩
  · rw [hsegments, htrim, List.append_assoc, List.singleton_append]
  · simpa only [htrim, List.getLast_concat, Bool.not_eq_true] using hn

theorem idle_of_lastName?_eq_none (h : lastName? p = none) :
    ∀ n ∈ segments p, isIdle n = true := by
  obtain ⟨ms, hsegments, hidle⟩ := exists_trimEnd (segments p)
  rw [List.getLast?_eq_none_iff.1 h, List.nil_append] at hsegments
  rw [hsegments]
  exact hidle

/-! ## The directory of a path -/

/-- The directory of a path as it is written in front of another name: a dot for one that is not
written. -/
def directory (p : Path) : Path :=
  match parent? p with
  | some d => if d = [] then dot else d
  | none => dot

theorem directory_ne_nil (p : Path) : directory p ≠ [] := by
  unfold directory
  split
  · split
    · exact List.cons_ne_nil _ _
    · assumption
  · exact List.cons_ne_nil _ _

theorem isAbsolute_child (hp : p ≠ []) (n : Name) : isAbsolute (child p n) = isAbsolute p := by
  obtain ⟨c, r, rfl⟩ := List.exists_cons_of_ne_nil hp
  unfold child
  rw [if_neg hp]
  split <;> rfl

/-- The names in front of a child are those of the directory, up to an empty one at the end. -/
theorem segments_child (hp : p ≠ []) :
    ∃ before, trimEnd before = trimEnd (segments p)
      ∧ ∀ n, slash ∉ n → segments (child p n) = before ++ [n] := by
  by_cases hlast : p.getLast? = some slash
  · obtain ⟨q, rfl⟩ : ∃ q, p = q ++ [slash] := by
      rw [List.getLast?_eq_some_iff] at hlast
      exact hlast
    refine ⟨segments q, ?_, ?_⟩
    · rw [segments_append_slash]
      exact (trimEnd_append_idle (by simp [segments, isIdle])).symm
    · intro n hn
      rw [child, if_neg hp, if_pos hlast, List.append_assoc, List.singleton_append,
        segments_append_slash, segments_of_not_mem hn]
  · refine ⟨segments p, rfl, ?_⟩
    intro n hn
    rw [child, if_neg hp, if_neg hlast, segments_append_slash, segments_of_not_mem hn]

/-- A path with a meaning in its first segment at most has no directory written. -/
theorem directory_of_segments_bare (h : segments p = n :: ms) (hms : ∀ m ∈ ms, isIdle m = true) :
    directory p = dot := by
  have htrim : trimEnd ms = [] := trimEnd_of_idle hms
  unfold directory parent?
  rw [h]
  simp only [htrim]
  by_cases hn : n = []
  · rw [if_pos hn]
  · rw [if_neg hn]
    rfl

/-- The directory of a path is written with the segments in front of its last name. -/
theorem directory_of_segments (h : segments p = first :: ns ++ n :: ms) (hn : isIdle n = false)
    (hms : ∀ m ∈ ms, isIdle m = true) :
    directory p = match trimEnd ns with
      | [] => if first = [] then [slash] else first
      | ts => join (first :: ts) := by
  have hparent : parent? p = match trimEnd ns with
      | [] => if first = [] then some [slash] else some first
      | ts => some (join (first :: ts)) := by
    unfold parent?
    rw [h, List.cons_append]
    simp only [trimEnd_append_cons hn hms]
    cases hc : ns ++ [n] with
    | nil => simp at hc
    | cons s ss =>
      have hns : (s :: ss).dropLast = ns := by rw [← hc, List.dropLast_concat]
      subst hns
      rfl
  unfold directory
  rw [hparent]
  cases trimEnd ns with
  | nil =>
    by_cases hf : first = []
    · simp [hf]
    · simp [hf]
  | cons s ss =>
    have hne : join (first :: s :: ss) ≠ [] := by simp [join]
    simp only [hne, if_false]

/-- The directory of a path is reached by the names in front of the last. -/
theorem trimEnd_segments_directory (h : segments p = ns ++ n :: ms) (hn : isIdle n = false)
    (hms : ∀ m ∈ ms, isIdle m = true) :
    trimEnd (segments (directory p)) = trimEnd ns
      ∧ isAbsolute (directory p) = isAbsolute p := by
  have hmem : ∀ m ∈ segments p, slash ∉ m := fun _ hm => slash_not_mem hm
  -- The first segment is apart from the others: an empty one makes the path absolute.
  cases ns with
  | nil =>
    rw [List.nil_append] at h
    rw [directory_of_segments_bare h hms]
    refine ⟨rfl, ?_⟩
    cases ms with
    | nil =>
      have hp : p = n := by
        rw [← join_segments p, h]
        rfl
      rw [hp, isAbsolute_of_not_mem (hmem n (by simp [h]))]
      rfl
    | cons m ms =>
      have hne : n ≠ [] := by
        rintro rfl
        cases hn
      rw [isAbsolute_of_segments h (List.cons_ne_nil m ms), decide_eq_false hne]
      rfl
  | cons first ns =>
    have hfirst : slash ∉ first := hmem first (by simp [h])
    have habs := isAbsolute_of_segments h (by simp)
    rw [directory_of_segments h hn hms, trimEnd_cons_of_trimEnd first ns, habs]
    cases ht : trimEnd ns with
    | nil =>
      by_cases hf : first = []
      · subst hf
        exact ⟨rfl, rfl⟩
      · simp only [hf, if_false, segments_of_not_mem hfirst, isAbsolute_of_not_mem hfirst,
          decide_false, and_self]
    | cons s ss =>
      have hsub : ∀ m ∈ first :: s :: ss, slash ∉ m := by
        intro m hm
        refine hmem m ?_
        rw [h, List.cons_append]
        rcases List.mem_cons.1 hm with rfl | hm
        · exact List.mem_cons_self
        · refine List.mem_cons_of_mem _ (List.mem_append_left _ ?_)
          rw [← ht] at hm
          exact (List.rdropWhile_prefix isIdle ns).subset hm
      have hseg := segments_join (List.cons_ne_nil first (s :: ss)) hsub
      exact ⟨by rw [hseg], isAbsolute_of_segments hseg (List.cons_ne_nil s ss)⟩

end Path

end PbxAgent.Storage
