import PbxAgent.Proofs.Json.Grammar

/-!
# Readers that take one value

Where a value is read for something, what is left is what follows the value (`Orderly`), whatever blanks
are in front of it. Scalars are read so, and with them lists and records of what is; a list is also taken back as
it was written (`reads_list`).
-/

namespace PbxAgent.Json

open Schema (Decoder Draft)

variable {α β σ : Type} {t r r' b : Bytes}

/-- Whether a reader looks past the blanks in front of a value and, where it takes the value for something,
takes it to its end. -/
structure Orderly (read : Reader α) : Prop where
  blanks : ∀ (ws : Blanks) b, read (ws.1 ++ b) = read b
  extent : ∀ {t r a r'}, IsValue t → Settled r → read (t ++ r) = .ok (a, r') → r' = r

theorem Orderly.extent_blanks {read : Reader α} (h : Orderly read) (ws : Blanks) {a : α}
    (ht : IsValue t) (hr : Settled r) (hread : read (ws.1 ++ (t ++ r)) = .ok (a, r')) : r' = r :=
  h.extent ht hr ((h.blanks ws _).symm.trans hread)

/-! ## Scalars -/

/-- A reader takes a value to its end if going through the value leads to where the reader stops. -/
theorem extent_of_skipValue {read : Reader α}
    (h : ∀ {b a r}, read b = .ok (a, r) → skipValue b = .ok r) {a : α} (ht : IsValue t)
    (hr : Settled r) (hread : read (t ++ r) = .ok (a, r')) : r' = r := by
  have hskip := skipValue_of_isValue ht noBlanks hr
  rw [noBlanks_append, h hread] at hskip
  exact Except.ok.inj hskip

theorem skipValue_of_text {s : String} (h : text b = .ok (s, r)) : skipValue b = .ok r := by
  obtain ⟨v, hv, h⟩ := bind_eq_ok.1 h
  cases v with
  | nil => cases h
  | cons c u =>
    dsimp only at h
    split at h
    next hquote =>
      subst hquote
      obtain ⟨⟨content, rest⟩, hbytes, h⟩ := bind_eq_ok.1 h
      have hskip := skipString_of_stringBytes hbytes
      have hrest : rest = r := by
        dsimp only at h
        split at h
        · cases h
          rfl
        · cases h
      subst hrest
      rw [skipValue, skipStep, hv, ok_bind]
      show ((skipString u).map _ >>= _) = _
      rw [hskip]
      rfl
    next => cases h

theorem skipValue_of_flag {x : Bool} (h : flag b = .ok (x, r)) : skipValue b = .ok r := by
  obtain ⟨v, hv, h⟩ := bind_eq_ok.1 h
  cases v with
  | nil => cases h
  | cons c u =>
    dsimp only at h
    split at h
    next htrue =>
      subst htrue
      obtain ⟨rest, hliteral, h⟩ := bind_eq_ok.1 h
      cases h
      rw [skipValue, skipStep, hv, ok_bind]
      show ((literal rue u).map _ >>= _) = _
      rw [hliteral]
      rfl
    next =>
      split at h
      next hfalse =>
        subst hfalse
        obtain ⟨rest, hliteral, h⟩ := bind_eq_ok.1 h
        cases h
        rw [skipValue, skipStep, hv, ok_bind]
        show ((literal alse u).map _ >>= _) = _
        rw [hliteral]
        rfl
      next => cases h

theorem orderly_text : Orderly Decoder.text.json where
  blanks ws b := by simp only [Decoder.text, text, value_blanks]
  extent := extent_of_skipValue skipValue_of_text

theorem orderly_flag : Orderly Decoder.flag.json where
  blanks ws b := by simp only [Decoder.flag, flag, value_blanks]
  extent := extent_of_skipValue skipValue_of_flag

theorem Orderly.map {d : Decoder α} (h : Orderly d.json) (f : α → β) : Orderly (d.map f).json where
  blanks ws b := by
    show (d.json (ws.1 ++ b)).map _ = (d.json b).map _
    rw [h.blanks]
  extent := by
    intro t r a r' ht hr hread
    have hread : (d.json (t ++ r)).map (fun found => (f found.1, found.2)) = .ok (a, r') := hread
    cases hd : d.json (t ++ r) with
    | error e =>
      rw [hd] at hread
      cases hread
    | ok found =>
      rw [hd] at hread
      cases hread
      exact h.extent ht hr hd

/-! ## Lists -/

/-- A value without parts does not begin with a bracket. -/
theorem IsScalar.ne_opening {c : UInt8} (h : IsScalar (c :: t)) (br : Bracket) : c ≠ br.opening := by
  generalize hu : c :: t = u at h
  cases h with
  | number h =>
    obtain ⟨d, r, rfl, hd⟩ := h.exists_cons
    obtain ⟨rfl, -⟩ := List.cons.inj hu
    rintro rfl
    cases br <;> cases hd
  | _ =>
    obtain ⟨rfl, -⟩ := List.cons.inj hu
    cases br <;> decide

theorem IsValue.list_of_cons (h : IsValue (0x5B :: t)) :
    ∃ ps gap, (∀ p ∈ ps, IsValue (Part.text p)) ∧ 0x5B :: t = Bracket.list.enclose ps gap := by
  generalize hu : 0x5B :: t = u at h
  cases h with
  | scalar h =>
    subst hu
    exact absurd rfl (h.ne_opening .list)
  | list h gap => exact ⟨_, gap, h, rfl⟩
  | object _ _ _ => cases hu

theorem IsValue.object_of_cons (h : IsValue (0x7B :: t)) :
    ∃ (es : List Entry) (gap : Blanks), (∀ e ∈ es, StringBody e.key) ∧ (∀ e ∈ es, IsValue e.value)
      ∧ 0x7B :: t = Bracket.object.enclose (es.map Entry.part) gap := by
  generalize hu : 0x7B :: t = u at h
  cases h with
  | scalar h =>
    subst hu
    exact absurd rfl (h.ne_opening .object)
  | list _ _ => cases hu
  | object keys values gap => exact ⟨_, gap, keys, values, rfl⟩

theorem moreElements_part {p : Part} (h : IsValue p.text) (first : Bool) (more : Bytes) :
    moreElements first (p.gap.1 ++ (separator first ++ (p.lead.1 ++ (p.text ++ more))))
      = .ok (true, p.text ++ more) := by
  obtain ⟨c, u, htext, hblank, hend⟩ := h.exists_cons
  rw [htext, List.cons_append]
  cases first with
  | true =>
    show moreElements true (p.gap.1 ++ (p.lead.1 ++ c :: (u ++ more))) = _
    simp only [moreElements, skipBlank_blanks, skipBlank_of_not_isBlank hblank]
    rw [if_neg hend]
    rfl
  | false =>
    show moreElements false (p.gap.1 ++ 0x2C :: (p.lead.1 ++ c :: (u ++ more))) = _
    simp only [moreElements, skipBlank_blanks_cons (show isBlank 0x2C = false by decide),
      skipBlank_blanks_cons hblank]
    rw [if_neg (by decide), if_neg (by decide), if_neg (by decide), if_neg hend]

theorem moreElements_end (first : Bool) (gap : Blanks) (r : Bytes) :
    moreElements first (gap.1 ++ 0x5D :: r) = .ok (false, 0x5D :: r) := by
  simp only [moreElements, skipBlank_blanks_cons (show isBlank 0x5D = false by decide)]
  rfl

/-- Elements that are read are read up to the end of the list. -/
theorem elements_extent {read : Reader α} (hread : Orderly read) {ps : List Part}
    (h : ∀ p ∈ ps, IsValue p.text) {gap : Blanks} {fuel : Nat} {first : Bool} {xs : List α}
    (hok : elements read fuel first (joined first ps ++ (gap.1 ++ 0x5D :: r)) = .ok (xs, b)) :
    b = 0x5D :: r := by
  induction ps generalizing fuel first xs with
  | nil =>
    cases fuel with
    | zero => cases hok
    | succ fuel =>
      rw [joined, List.nil_append, elements, moreElements_end] at hok
      cases hok
      rfl
  | cons p ps ih =>
    obtain ⟨hp, hps⟩ := List.forall_mem_cons.1 h
    cases fuel with
    | zero => cases hok
    | succ fuel =>
      simp only [joined, List.append_assoc] at hok
      rw [elements, moreElements_part hp, ok_bind] at hok
      dsimp only at hok
      rw [if_pos rfl] at hok
      obtain ⟨⟨x, rest⟩, hx, hok⟩ := bind_eq_ok.1 hok
      obtain ⟨⟨ys, rest'⟩, hys, hok⟩ := bind_eq_ok.1 hok
      cases hok
      obtain rfl := hread.extent hp (settled_joined .list ps gap r) hx
      exact ih hps hys

theorem orderly_list {d : Decoder α} (h : Orderly d.json) : Orderly d.list.json where
  blanks ws b := by simp only [Decoder.list, list, value_blanks]
  extent := by
    intro t r xs r' ht hr hok
    obtain ⟨c, u, rfl, hblank, -⟩ := ht.exists_cons
    change list d.json (c :: (u ++ r)) = .ok (xs, r') at hok
    rw [list, value_of_not_isBlank hblank, ok_bind] at hok
    dsimp only at hok
    split at hok
    next hopen =>
      subst hopen
      obtain ⟨ps, gap, hps, hu⟩ := ht.list_of_cons
      obtain rfl := (List.cons.inj hu).2
      simp only [List.append_assoc] at hok
      obtain ⟨⟨ys, rest⟩, hys, hok⟩ := bind_eq_ok.1 hok
      obtain rfl := elements_extent h hps hys
      cases hok
      rfl
    next => cases hok

/-! ## Lists as they are written -/

theorem moreElements_value (first : Bool) (v : Value) (r : Bytes) :
    moreElements first (separator first ++ (v.bytes ++ r)) = .ok (true, v.bytes ++ r) :=
  moreElements_part (p := .plain v.bytes) v.isValue first r

theorem elements_written {read : Reader α} {write : α → Value} {xs : List α}
    (h : ∀ x ∈ xs, Reads read (write x) x) {fuel : Nat} (hfuel : xs.length < fuel) (first : Bool)
    (rest : Bytes) :
    elements read fuel first (separated first (xs.map fun x => (write x).bytes) ++ 0x5D :: rest)
      = .ok (xs, 0x5D :: rest) := by
  induction xs generalizing fuel first with
  | nil =>
    obtain ⟨n, rfl⟩ := Nat.exists_eq_succ_of_ne_zero (Nat.ne_zero_of_lt hfuel)
    rfl
  | cons x xs ih =>
    obtain ⟨n, rfl⟩ := Nat.exists_eq_succ_of_ne_zero (Nat.ne_zero_of_lt hfuel)
    have hx := h x List.mem_cons_self
    have hrest := ih (fun y hy => h y (List.mem_cons_of_mem x hy)) (Nat.lt_of_succ_lt_succ hfuel)
      false
    rw [List.map_cons, separated, List.append_assoc, List.append_assoc, elements,
      moreElements_value]
    simp only [bind, Except.bind, if_true, hx _, hrest]
    rfl

theorem length_le_separated (first : Bool) {ps : List Bytes} (h : [] ∉ ps) :
    ps.length ≤ (separated first ps).length := by
  induction ps generalizing first with
  | nil => exact Nat.le_refl 0
  | cons p ps ih =>
    rw [List.mem_cons, not_or] at h
    have hp : 0 < p.length := List.length_pos_iff.2 (Ne.symm h.1)
    have hps := ih false h.2
    simp only [separated, List.length_append, List.length_cons]
    omega

theorem reads_list {d : Decoder α} {write : α → Value} {xs : List α}
    (h : ∀ x ∈ xs, Reads d.json (write x) x) : Reads d.list.json (.list (xs.map write)) xs := by
  intro rest
  have hbytes : (Value.list (xs.map write)).bytes
      = 0x5B :: (separated true (xs.map fun x => (write x).bytes) ++ [0x5D]) := by
    rw [bytes_list, List.map_map]
    rfl
  have hlen : xs.length ≤ (separated true (xs.map fun x => (write x).bytes)).length := by
    refine Nat.le_trans (Nat.le_of_eq (by simp)) (length_le_separated true ?_)
    intro hnil
    obtain ⟨x, -, hx⟩ := List.mem_map.1 hnil
    obtain ⟨c, t, hv, -⟩ := exists_head_bytes (write x)
    rw [hv] at hx
    cases hx
  show list d.json _ = _
  rw [hbytes, List.cons_append, List.append_assoc, list, value_of_not_isBlank (by decide)]
  simp only [bind, Except.bind, if_true, List.singleton_append]
  rw [elements_written h (by simp; omega)]
  rfl

/-! ## Records given as lists -/

theorem stopAt_eq_ok {x : Except Fault α} {a : α} : stopAt x = .ok a ↔ x = .ok a := by
  cases x <;> simp [stopAt]

theorem skipBlank_of_endList (h : endList b = .ok r) : skipBlank b = 0x5D :: r := by
  unfold endList at h
  split at h
  · cases h
  next c u hskip =>
    split at h
    next hend =>
      cases h
      rw [hskip, hend]
    · split at h
      · split at h
        · split at h
          · cases h
          · cases h
        · cases h
      · cases h

/-- The end of a list is gone over only behind all its parts. -/
theorem endList_extent {ps : List Part} (h : ∀ p ∈ ps, IsValue p.text) {first : Bool} {gap : Blanks}
    (hok : endList (joined first ps ++ (gap.1 ++ 0x5D :: r)) = .ok r') : r' = r := by
  have hskip := skipBlank_of_endList hok
  cases ps with
  | nil =>
    rw [joined, List.nil_append, skipBlank_blanks_cons (by decide)] at hskip
    exact (List.cons.inj hskip).2.symm
  | cons p ps =>
    obtain ⟨c, u, htext, hblank, hend⟩ := (h p List.mem_cons_self).exists_cons
    simp only [joined, List.append_assoc, htext, List.cons_append, skipBlank_blanks] at hskip
    cases first with
    | true =>
      have hpart : skipBlank (p.lead.1 ++ c :: (u ++ (joined false ps ++ (gap.1 ++ 0x5D :: r))))
          = 0x5D :: r' := hskip
      rw [skipBlank_blanks_cons hblank] at hpart
      exact absurd (List.cons.inj hpart).1 hend
    | false =>
      have hcomma : skipBlank (0x2C :: (p.lead.1 ++ c :: (u ++ (joined false ps ++ (gap.1 ++ 0x5D :: r)))))
          = 0x5D :: r' := hskip
      rw [skipBlank_of_not_isBlank (by decide)] at hcomma
      cases hcomma

/-- Behind the members that were read stand the parts that were not reached. -/
theorem listMembers_extent {expected : String} {members : List (Member σ)}
    (hmembers : ∀ m ∈ members, Orderly m.read) {ps : List Part} (h : ∀ p ∈ ps, IsValue p.text)
    {count : Nat} {first : Bool} {gap : Blanks} {s s' : σ}
    (hok : listMembers expected members count first s (joined first ps ++ (gap.1 ++ 0x5D :: r))
      = .ok (s', b)) :
    ∃ (first' : Bool) (ps' : List Part) (gap' : Blanks), (∀ p ∈ ps', IsValue p.text)
      ∧ b = joined first' ps' ++ (gap'.1 ++ 0x5D :: r) := by
  induction members generalizing ps count first gap s with
  | nil =>
    cases hok
    exact ⟨first, ps, gap, h, rfl⟩
  | cons m ms ih =>
    obtain ⟨hm, hms⟩ := List.forall_mem_cons.1 hmembers
    cases ps with
    | nil =>
      rw [joined, List.nil_append, listMembers, moreElements_end] at hok
      simp only [stopAt, ok_bind, Bool.false_eq_true, if_false] at hok
      split at hok
      · cases hok
      -- The parts have run out; what is left is looked at for each of the members that are not required.
      · have hend : listMembers expected ms (count + 1) first s
            (joined first [] ++ (noBlanks.1 ++ 0x5D :: r)) = .ok (s', b) := hok
        exact ih hms h hend
    | cons p ps =>
      obtain ⟨hp, hps⟩ := List.forall_mem_cons.1 h
      simp only [joined, List.append_assoc] at hok
      rw [listMembers, moreElements_part hp] at hok
      simp only [stopAt, ok_bind, if_true] at hok
      obtain ⟨⟨update, rest⟩, hupdate, hok⟩ := bind_eq_ok.1 hok
      obtain rfl := hm.extent hp (settled_joined .list ps gap r) (stopAt_eq_ok.1 hupdate)
      exact ih hms hps hok

end PbxAgent.Json
