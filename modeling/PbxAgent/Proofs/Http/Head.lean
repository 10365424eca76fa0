import Mathlib.Data.List.DropRight
import Mathlib.Data.List.Forall2
import PbxAgent.Http.Head
import PbxAgent.Proofs.Fallible

/-!
# Heads that go on

What is read of a head depends on the bytes that make it up, not on those that follow. Its fields are
those that its lines spell (`fieldLines_eq_ok`), and more bytes behind it leave a head as it is
(`parse_extend`). A head whose empty line is taken off can be given more fields, and these are read behind
its own (`parse_append`).
-/

namespace PbxAgent.Http.Head

/-! ## Runs -/

section
variable {α : Type} {p : α → Bool} {b r w : List α} {c : α}

/-- Where a run stops. -/
theorem dropWhile_eq_cons (h : b.dropWhile p = c :: r) :
    b = b.takeWhile p ++ c :: r ∧ p c = false := by
  constructor
  · rw [← h, List.takeWhile_append_dropWhile]
  · have hstop := List.head?_dropWhile_not p b
    rw [h] at hstop
    simpa using hstop

theorem takeWhile_run (hw : ∀ x ∈ w, p x = true) (hc : p c = false) (r : List α) :
    (w ++ c :: r).takeWhile p = w := by
  rw [List.takeWhile_append_of_pos hw, List.takeWhile_cons_of_neg (by simp [hc]), List.append_nil]

theorem dropWhile_run (hw : ∀ x ∈ w, p x = true) (hc : p c = false) (r : List α) :
    (w ++ c :: r).dropWhile p = c :: r := by
  rw [List.dropWhile_append_of_pos hw, List.dropWhile_cons_of_neg (by simp [hc])]

theorem dropWhile_eq_self (hw : ∀ x ∈ w, p x = false) : w.dropWhile p = w := by
  cases w with
  | nil => rfl
  | cons c r => rw [List.dropWhile_cons_of_neg (by simp [hw c (List.mem_cons_self ..)])]

end

/-! ## Parts of a line -/

/-- The two ends that a line may have. -/
def IsLineEnd (e : Bytes) : Prop :=
  e = [0x0A] ∨ e = [0x0D, 0x0A]

theorem IsLineEnd.getLast? {e : Bytes} (h : IsLineEnd e) : e.getLast? = some 0x0A := by
  rcases h with rfl | rfl <;> rfl

variable {b rest e : Bytes} {fault afterReturn : HeadError}

theorem endLine_eq_ok (h : endLine fault afterReturn b = .ok rest) :
    ∃ e, IsLineEnd e ∧ b = e ++ rest := by
  rw [endLine.eq_def] at h
  split at h
  · cases h
  next c r =>
    split at h
    next hc =>
      cases h
      exact ⟨[0x0A], .inl rfl, by rw [hc]; rfl⟩
    next =>
      split at h
      · cases h
      next hc =>
        split at h
        · cases h
        next d r =>
          split at h
          next hd =>
            cases h
            have hc : c = 0x0D := by simpa using hc
            exact ⟨[0x0D, 0x0A], .inr rfl, by rw [hc, hd]; rfl⟩
          · cases h

theorem endLine_append (he : IsLineEnd e) (x : Bytes) :
    endLine fault afterReturn (e ++ x) = .ok x := by
  rcases he with rfl | rfl <;> rfl

theorem word_append {isByte : UInt8 → Bool} {w : Bytes} (hne : w ≠ [])
    (hall : ∀ c ∈ w, isByte c = true) (hspace : isByte 0x20 = false) (x : Bytes) :
    word isByte (w ++ 0x20 :: x) = .ok (w, x) := by
  rw [word, dropWhile_run hall hspace, takeWhile_run hall hspace]
  exact if_pos ⟨rfl, hne⟩

theorem word_eq_ok {isByte : UInt8 → Bool} {w : Bytes} (h : word isByte b = .ok (w, rest)) :
    w ≠ [] ∧ (∀ c ∈ w, isByte c = true) ∧ b = w ++ 0x20 :: rest := by
  unfold word at h
  split at h
  · cases h
  next c r hdrop =>
    split at h
    next hc =>
      obtain ⟨rfl, hw⟩ := hc
      cases h
      exact ⟨hw, List.all_eq_true.1 List.all_takeWhile, (dropWhile_eq_cons hdrop).1⟩
    · cases h

/-- A version as it is written. -/
def versionBytes : Version → Bytes
  | .http10 => versionStem ++ [0x30]
  | .http11 => versionStem ++ [0x31]

theorem takeVersion_append (v : Version) (x : Bytes) :
    takeVersion (versionBytes v ++ x) = .ok (v, x) := by
  cases v <;> rfl

theorem takeVersion_eq_ok {v : Version} (h : takeVersion b = .ok (v, rest)) :
    b = versionBytes v ++ rest := by
  unfold takeVersion at h
  split at h
  · split at h <;> cases h
  · split at h
    next hstem =>
      obtain ⟨r, rfl⟩ := List.isPrefixOf_iff_prefix.1 hstem
      rw [List.drop_left' (by rfl)] at h
      split at h
      · cases h
        simp [versionBytes]
      · cases h
        simp [versionBytes]
      · cases h
    · cases h

/-- Empty lines are gone over up to a byte that begins something else. -/
theorem skipEmptyLines_eq_ok (h : skipEmptyLines b = .ok rest) :
    ∃ empty : List Bytes, (∀ l ∈ empty, IsLineEnd l) ∧ b = empty.flatten ++ rest := by
  fun_induction skipEmptyLines b with
  | case1 | case4 | case6 => cases h
  | case2 r ih =>
    obtain ⟨empty, hempty, hr⟩ := ih h
    exact ⟨[0x0A] :: empty, List.forall_mem_cons.2 ⟨.inl rfl, hempty⟩, by rw [hr]; rfl⟩
  | case3 =>
    cases h
    exact ⟨[], nofun, rfl⟩
  | case5 c hfeed hreturn r ih =>
    have hreturn : c = 0x0D := by simpa using hreturn
    obtain ⟨empty, hempty, hr⟩ := ih h
    refine ⟨[0x0D, 0x0A] :: empty, List.forall_mem_cons.2 ⟨.inr rfl, hempty⟩, ?_⟩
    rw [hreturn, hr]
    rfl

theorem skipEmptyLines_append {empty : List Bytes} (h : ∀ l ∈ empty, IsLineEnd l) {c : UInt8}
    (hfeed : c ≠ 0x0A) (hreturn : c ≠ 0x0D) (x : Bytes) :
    skipEmptyLines (empty.flatten ++ c :: x) = .ok (c :: x) := by
  induction empty with
  | nil =>
    rw [List.flatten_nil, List.nil_append, skipEmptyLines.eq_def]
    simp only [hfeed, hreturn, if_false, if_true, ne_eq, not_false_eq_true]
  | cons l empty ih =>
    obtain ⟨hl, hempty⟩ := List.forall_mem_cons.1 h
    rw [List.flatten_cons, List.append_assoc]
    rcases hl with rfl | rfl
    · rw [List.singleton_append, skipEmptyLines.eq_def]
      exact ih hempty
    · rw [List.cons_append, List.singleton_append, skipEmptyLines.eq_def]
      exact ih hempty

/-! ## Fields -/

/-- What a line of a head looks like from outside: it does not begin like the empty line, and it is
ended. -/
structure IsLine (line : Bytes) : Prop where
  begun : ∃ c r, line = c :: r ∧ c ≠ 0x0A ∧ c ≠ 0x0D
  ended : line.getLast? = some 0x0A

theorem isToken_ne {c : UInt8} (h : isToken c = true) : c ≠ 0x0A ∧ c ≠ 0x0D := by
  constructor <;> rintro rfl <;> exact absurd h (by decide)

theorem isLine_append {name : Bytes} (hname : name ≠ []) (htoken : ∀ c ∈ name, isToken c = true)
    (he : IsLineEnd e) (said : Bytes) : IsLine (name ++ 0x3A :: (said ++ e)) := by
  obtain ⟨c, r, rfl⟩ := List.exists_cons_of_ne_nil hname
  refine ⟨⟨c, r ++ 0x3A :: (said ++ e), rfl, isToken_ne (htoken c (List.mem_cons_self ..))⟩, ?_⟩
  simp [List.getLast?_append, List.getLast?_cons, he.getLast?]

/-- A name, a colon, blanks, a value and what ends the line make up a field. -/
theorem field_append {name blanks value : Bytes} (hname : name ≠ [])
    (htoken : ∀ c ∈ name, isToken c = true) (hblanks : ∀ c ∈ blanks, isBlank c = true)
    (hvalue : ∀ c ∈ value, isValueByte c = true) (hfront : ∀ c ∈ value.head?, isBlank c = false)
    (he : IsLineEnd e) (x : Bytes) :
    field (name ++ 0x3A :: (blanks ++ (value ++ (e ++ x)))) = .ok ((name, trimEnd value), x) := by
  obtain ⟨c, r, hce, hblank, hbyte⟩ :
      ∃ c r, e = c :: r ∧ isBlank c = false ∧ isValueByte c = false := by
    rcases he with rfl | rfl
    · exact ⟨_, _, rfl, by decide, by decide⟩
    · exact ⟨_, _, rfl, by decide, by decide⟩
  have hskip : (blanks ++ (value ++ (e ++ x))).dropWhile isBlank = value ++ (e ++ x) := by
    cases value with
    | nil => simpa only [hce, List.nil_append, List.cons_append] using dropWhile_run hblanks hblank _
    | cons d v => exact dropWhile_run hblanks (hfront d rfl) _
  have hstop : value ++ (e ++ x) = value ++ c :: (r ++ x) := by rw [hce, List.cons_append]
  have hend : endLine .fieldValue .fieldValue (c :: (r ++ x)) = .ok x := by
    rw [← List.cons_append, ← hce]
    exact endLine_append he x
  unfold field
  dsimp only
  rw [dropWhile_run htoken (by decide), takeWhile_run htoken (by decide)]
  dsimp only
  rw [if_neg (by simpa using hname), hskip, hstop, dropWhile_run hvalue hbyte,
    takeWhile_run hvalue hbyte, hend]
  rfl

/-- Whether a line spells a field: its name, a colon, its value with blanks around it, and the line's
end. -/
structure Spells (f : Bytes × Bytes) (line : Bytes) : Prop where
  written : ∃ before after e, line = f.1 ++ 0x3A :: (before ++ f.2 ++ after ++ e)
    ∧ (∀ c ∈ before, isBlank c = true) ∧ (∀ c ∈ after, isBlank c = true) ∧ IsLineEnd e
  name_ne_nil : f.1 ≠ []
  name : ∀ c ∈ f.1, isToken c = true
  value : ∀ c ∈ f.2, isValueByte c = true
  begun : ∀ c ∈ f.2.head?, isBlank c = false
  ended : ∀ c ∈ f.2.getLast?, isBlank c = false

theorem isValueByte_of_isBlank {c : UInt8} (h : isBlank c = true) : isValueByte c = true := by
  simp only [isBlank, Bool.or_eq_true, decide_eq_true_eq] at h
  rcases h with rfl | rfl
  · decide
  · decide

/-- What is cut off the end of a value is blanks. -/
theorem exists_trimEnd (value : Bytes) :
    ∃ after, value = trimEnd value ++ after ∧ ∀ c ∈ after, isBlank c = true :=
  ⟨value.rtakeWhile isBlank, List.rdropWhile_append_rtakeWhile.symm,
    fun _ hc => List.mem_rtakeWhile_imp hc⟩

theorem isBlank_of_mem_getLast?_trimEnd {value : Bytes} {c : UInt8}
    (h : c ∈ (trimEnd value).getLast?) : isBlank c = false := by
  have hne : trimEnd value ≠ [] := by
    intro hnil
    rw [hnil] at h
    cases h
  rw [Option.mem_def, List.getLast?_eq_getLast_of_ne_nil hne] at h
  cases h
  exact eq_false_of_ne_true (List.rdropWhile_last_not isBlank value hne)

theorem trimEnd_eq_self {value : Bytes} (h : ∀ c ∈ value.getLast?, isBlank c = false) :
    trimEnd value = value := by
  refine List.rdropWhile_eq_self_iff.2 fun hne => ?_
  simpa using h _ (List.getLast?_eq_getLast_of_ne_nil hne)

theorem trimEnd_append {value after : Bytes} (hvalue : ∀ c ∈ value.getLast?, isBlank c = false)
    (hafter : ∀ c ∈ after, isBlank c = true) : trimEnd (value ++ after) = value := by
  have hall : ∀ c ∈ after.reverse, isBlank c = true := fun c hc => hafter c (List.mem_reverse.1 hc)
  rw [trimEnd, List.reverse_append, List.dropWhile_append_of_pos hall]
  exact trimEnd_eq_self hvalue

namespace Spells

variable {f : Bytes × Bytes} {line : Bytes}

theorem isLine (h : Spells f line) : IsLine line := by
  obtain ⟨before, after, e, rfl, -, -, he⟩ := h.written
  exact isLine_append h.name_ne_nil h.name he (before ++ f.2 ++ after)

/-- A line that spells a field is read as that field, whatever follows. -/
theorem field_eq (h : Spells f line) (x : Bytes) : field (line ++ x) = .ok (f, x) := by
  obtain ⟨name, value⟩ := f
  obtain ⟨before, after, e, rfl, hbefore, hafter, he⟩ := h.written
  cases value with
  | nil =>
    -- all the blanks are in front of a value that is not there
    have hblanks : ∀ c ∈ before ++ after, isBlank c = true := by
      intro c hc
      exact (List.mem_append.1 hc).elim (hbefore c) (hafter c)
    have hread := field_append h.name_ne_nil h.name hblanks h.value h.begun he x
    rw [trimEnd_eq_self h.ended] at hread
    simpa using hread
  | cons d v =>
    have hvalue : ∀ c ∈ d :: v ++ after, isValueByte c = true := by
      intro c hc
      exact (List.mem_append.1 hc).elim (h.value c) fun hc => isValueByte_of_isBlank (hafter c hc)
    have hread := field_append h.name_ne_nil h.name hbefore hvalue h.begun he x
    rw [trimEnd_append h.ended hafter] at hread
    simpa using hread

end Spells

/-- What is read as a field is a line that spells it. -/
theorem field_eq_ok {f : Bytes × Bytes} (h : field b = .ok (f, rest)) :
    ∃ line, Spells f line ∧ b = line ++ rest := by
  unfold field at h
  dsimp only at h
  split at h
  · cases h
  next c r hdrop =>
    split at h
    · cases h
    next hc =>
      obtain ⟨rfl, hname⟩ : c = 0x3A ∧ b.takeWhile isToken ≠ [] := by
        simpa [not_or] using hc
      obtain ⟨rest', hend, h⟩ := bind_eq_ok.1 h
      cases h
      obtain ⟨e, he, hrest⟩ := endLine_eq_ok hend
      let name := b.takeWhile isToken
      let before := r.takeWhile isBlank
      let run := (r.dropWhile isBlank).takeWhile isValueByte
      obtain ⟨after, hrun, hafter⟩ := exists_trimEnd run
      have hr : r = before ++ (run ++ (e ++ rest)) := by
        rw [← hrest, List.takeWhile_append_dropWhile, List.takeWhile_append_dropWhile]
      have hbegun : ∀ c ∈ run.head?, isBlank c = false := by
        intro c hc
        have hstop := List.head?_dropWhile_not isBlank r
        rw [List.head?_takeWhile, Option.mem_def, Option.filter_eq_some_iff] at hc
        rw [hc.1] at hstop
        simpa using hstop
      have hrunByte : ∀ c ∈ run, isValueByte c = true := List.all_eq_true.1 List.all_takeWhile
      refine ⟨name ++ 0x3A :: (before ++ trimEnd run ++ after ++ e), ?_, ?_⟩
      · refine ⟨⟨before, after, e, rfl, ?_, hafter, he⟩, hname, ?_, ?_, ?_, ?_⟩
        · exact List.all_eq_true.1 List.all_takeWhile
        · exact List.all_eq_true.1 List.all_takeWhile
        · intro c hc
          refine hrunByte c ?_
          rw [hrun]
          exact List.mem_append_left _ hc
        · intro c hc
          refine hbegun c ?_
          rw [hrun, List.head?_append, hc]
          rfl
        · exact fun c hc => isBlank_of_mem_getLast?_trimEnd hc
      · rw [(dropWhile_eq_cons hdrop).1, hr, List.append_assoc before, ← hrun]
        simp [name]

theorem fieldLines_lineEnd (he : IsLineEnd e) (room : Nat) (x : Bytes) :
    fieldLines room (e ++ x) = .ok ([], x) := by
  rcases he with rfl | rfl <;> cases room <;> rfl

theorem fieldLines_line {line x : Bytes} {f : Bytes × Bytes} (hline : IsLine line)
    (hf : field (line ++ x) = .ok (f, x)) (room : Nat) :
    fieldLines (room + 1) (line ++ x)
      = (fieldLines room x).map fun (fs, rest) => (f :: fs, rest) := by
  obtain ⟨c, r, rfl, hfeed, hreturn⟩ := hline.begun
  rw [List.cons_append] at hf
  rw [List.cons_append, fieldLines.eq_def]
  dsimp only
  rw [if_neg (by simp [hfeed, hreturn]), hf]
  show (fieldLines room x >>= fun s => pure (f :: s.1, s.2)) = _
  cases fieldLines room x <;> rfl

/-- Reading fields either ends at the empty line or takes one off and goes on with less room. -/
theorem fieldLines_cases {room : Nat} {fs : List (Bytes × Bytes)}
    (h : fieldLines room b = .ok (fs, rest)) :
    (fs = [] ∧ ∃ e, IsLineEnd e ∧ b = e ++ rest)
      ∨ ∃ f gs line more room', fs = f :: gs ∧ b = line ++ more ∧ room = room' + 1
          ∧ Spells f line ∧ fieldLines room' more = .ok (gs, rest) := by
  rw [fieldLines.eq_def] at h
  cases b with
  | nil => cases h
  | cons c r =>
    dsimp only at h
    split at h
    · obtain ⟨rest', hend, h⟩ := bind_eq_ok.1 h
      cases h
      exact .inl ⟨rfl, endLine_eq_ok hend⟩
    · obtain ⟨⟨f, more⟩, hf, h⟩ := bind_eq_ok.1 h
      obtain ⟨line, spelled, hb⟩ := field_eq_ok hf
      cases room with
      | zero => cases h
      | succ room =>
        obtain ⟨⟨gs, rest'⟩, hgs, h⟩ := bind_eq_ok.1 h
        cases h
        exact .inr ⟨f, gs, line, more, room, rfl, hb, rfl, spelled, hgs⟩

/-- Fields are read off the lines that spell them and the empty line behind these. -/
theorem fieldLines_eq_ok {room : Nat} {fs : List (Bytes × Bytes)}
    (h : fieldLines room b = .ok (fs, rest)) :
    ∃ lines e, List.Forall₂ Spells fs lines ∧ IsLineEnd e ∧ b = lines.flatten ++ (e ++ rest)
      ∧ fs.length ≤ room := by
  induction fs generalizing b room with
  | nil =>
    obtain ⟨-, e, he, hb⟩ | ⟨f, gs, -, -, -, hfs, -⟩ := fieldLines_cases h
    · exact ⟨[], e, .nil, he, hb, Nat.zero_le _⟩
    · cases hfs
  | cons f fs ih =>
    obtain ⟨hfs, -⟩ | ⟨f, gs, line, more, room, hfs, hb, rfl, spelled, hgs⟩ := fieldLines_cases h
    · cases hfs
    · cases hfs
      obtain ⟨lines, e, hlines, he, hmore, hlen⟩ := ih hgs
      refine ⟨line :: lines, e, .cons spelled hlines, he, ?_, ?_⟩
      · rw [hb, hmore, List.flatten_cons, List.append_assoc]
      · rw [List.length_cons]
        omega

/-- Lines that spell fields can have more put behind them. -/
theorem fieldLines_append {fs : List (Bytes × Bytes)} {lines : List Bytes}
    (h : List.Forall₂ Spells fs lines) (more : Nat) (x : Bytes) :
    fieldLines (fs.length + more) (lines.flatten ++ x)
      = (fieldLines more x).map fun (gs, rest) => (fs ++ gs, rest) := by
  induction h with
  | nil =>
    rw [List.length_nil, Nat.zero_add, List.flatten_nil, List.nil_append]
    cases fieldLines more x <;> rfl
  | cons spelled _ ih =>
    rw [List.length_cons, Nat.add_right_comm, List.flatten_cons, List.append_assoc,
      fieldLines_line spelled.isLine (spelled.field_eq _), ih]
    cases fieldLines more x <;> rfl

theorem getLast?_flatten_spelled {fs : List (Bytes × Bytes)} {lines : List Bytes}
    (h : List.Forall₂ Spells fs lines) :
    lines.flatten = [] ∨ lines.flatten.getLast? = some 0x0A := by
  induction h with
  | nil => exact .inl rfl
  | cons spelled _ ih =>
    right
    rw [List.flatten_cons]
    rcases ih with hnil | hlast
    · rw [hnil, List.append_nil]
      exact spelled.isLine.ended
    · rw [List.getLast?_append, hlast]
      rfl

/-- Bytes of a value that has no blanks in it. -/
def isWordByte (c : UInt8) : Bool :=
  isValueByte c && !isBlank c

theorem isWordByte_iff {c : UInt8} :
    isWordByte c = true ↔ isValueByte c = true ∧ isBlank c = false := by
  rw [isWordByte, Bool.and_eq_true, Bool.not_eq_true']

/-- One field and the empty line, as they are written. -/
theorem fieldLines_single {name value : Bytes} (hname : name ≠ [])
    (htoken : ∀ c ∈ name, isToken c = true) (hvalue : ∀ c ∈ value, isWordByte c = true) (room : Nat)
    (x : Bytes) :
    fieldLines (room + 1)
        (name ++ [0x3A, 0x20] ++ value ++ [0x0D, 0x0A] ++ ([0x0D, 0x0A] ++ x))
      = .ok ([(name, value)], x) := by
  have hend : IsLineEnd [0x0D, 0x0A] := .inr rfl
  have hspace : ∀ c ∈ ([0x20] : Bytes), isBlank c = true := List.all_eq_true.1 (by decide)
  have hblank : ∀ c ∈ value, isBlank c = false := fun c hc => (isWordByte_iff.1 (hvalue c hc)).2
  have spelled : Spells (name, value) (name ++ [0x3A, 0x20] ++ value ++ [0x0D, 0x0A]) := by
    refine ⟨⟨[0x20], [], [0x0D, 0x0A], by simp, hspace, ?_, hend⟩, hname, htoken, ?_, ?_, ?_⟩
    · exact fun _ hc => absurd hc List.not_mem_nil
    · exact fun c hc => (isWordByte_iff.1 (hvalue c hc)).1
    · exact fun c hc => hblank c (List.mem_of_mem_head? hc)
    · exact fun c hc => hblank c (List.mem_of_getLast? hc)
  rw [fieldLines_line spelled.isLine (spelled.field_eq _), fieldLines_lineEnd hend]
  rfl

/-! ## Heads -/

/-- Whether some bytes are how a head begins: its first line, with empty lines in front of it. -/
structure Begins (head : Head) (start : Bytes) : Prop where
  written : ∃ (empty : List Bytes) (e : Bytes), start = empty.flatten ++ (head.method ++ 0x20 ::
      (head.target ++ 0x20 :: (versionBytes head.version ++ e)))
    ∧ (∀ l ∈ empty, IsLineEnd l) ∧ IsLineEnd e
  method_ne_nil : head.method ≠ []
  method : ∀ c ∈ head.method, isToken c = true
  target_ne_nil : head.target ≠ []
  target : ∀ c ∈ head.target, isTargetByte c = true
  valid : Text.Utf8.isValid head.target = true

theorem Begins.getLast? {head : Head} {start : Bytes} (h : Begins head start) :
    start.getLast? = some 0x0A := by
  obtain ⟨empty, e, hstart, -, he⟩ := h.written
  rw [hstart]
  simp [List.getLast?_append, List.getLast?_cons, he.getLast?]

/-- The first line of a head is read whatever follows it. -/
theorem Begins.parse_append {head : Head} {start : Bytes} (h : Begins head start) (x : Bytes) :
    parse (start ++ x) = (fieldLines maxFields x).map fun (fs, rest) =>
      ({ head with fields := fs }, rest) := by
  obtain ⟨empty, e, rfl, hempty, he⟩ := h.written
  have hskip : ∀ y, skipEmptyLines (empty.flatten ++ (head.method ++ y)) = .ok (head.method ++ y) := by
    intro y
    obtain ⟨c, r, hm⟩ := List.exists_cons_of_ne_nil h.method_ne_nil
    have hc : c ∈ head.method := by rw [hm]; exact List.mem_cons_self
    obtain ⟨hfeed, hreturn⟩ := isToken_ne (h.method c hc)
    rw [hm]
    exact skipEmptyLines_append hempty hfeed hreturn _
  have hmethod := word_append h.method_ne_nil h.method (by decide)
  have htarget := word_append h.target_ne_nil h.target (by decide)
  unfold parse
  simp only [List.append_assoc, List.cons_append, hskip, hmethod, htarget, takeVersion_append,
    endLine_append he, ok_bind, h.valid]
  rw [if_neg (by decide)]
  cases fieldLines maxFields x <;> rfl

/-- A head is its first line and its fields. -/
theorem parse_eq_ok {head : Head} (h : parse b = .ok (head, rest)) :
    ∃ start lines, Begins head start ∧ b = start ++ lines
      ∧ fieldLines maxFields lines = .ok (head.fields, rest) := by
  unfold parse at h
  obtain ⟨b₁, hskip, h⟩ := bind_eq_ok.1 h
  obtain ⟨⟨method, b₂⟩, hmethod, h⟩ := bind_eq_ok.1 h
  obtain ⟨⟨target, b₃⟩, htarget, h⟩ := bind_eq_ok.1 h
  dsimp only at h
  split at h
  · cases h
  next hvalid =>
    obtain ⟨⟨version, b₄⟩, hversion, h⟩ := bind_eq_ok.1 h
    dsimp only at h
    obtain ⟨lines, hend, h⟩ := bind_eq_ok.1 h
    obtain ⟨⟨fs, rest⟩, hfields, h⟩ := bind_eq_ok.1 h
    cases h
    obtain ⟨empty, hempty, rfl⟩ := skipEmptyLines_eq_ok hskip
    obtain ⟨hmne, hmall, rfl⟩ := word_eq_ok hmethod
    obtain ⟨htne, htall, rfl⟩ := word_eq_ok htarget
    obtain rfl := takeVersion_eq_ok hversion
    obtain ⟨e, he, rfl⟩ := endLine_eq_ok hend
    refine ⟨_, lines, ⟨⟨empty, e, rfl, hempty, he⟩, hmne, hmall, htne, htall, ?_⟩, ?_, hfields⟩
    · simpa using hvalid
    · simp

/-- A head that is read is the same head in front of anything else. -/
theorem parse_extend {head : Head} (h : parse b = .ok (head, rest)) (x : Bytes) :
    parse (b ++ x) = .ok (head, rest ++ x) := by
  obtain ⟨start, all, begins, rfl, hfields⟩ := parse_eq_ok h
  obtain ⟨lines, e, spelled, he, rfl, hlen⟩ := fieldLines_eq_ok hfields
  obtain ⟨more, hroom⟩ := Nat.exists_eq_add_of_le hlen
  have hlines : fieldLines maxFields (lines.flatten ++ (e ++ (rest ++ x)))
      = .ok (head.fields, rest ++ x) := by
    rw [hroom, fieldLines_append spelled, fieldLines_lineEnd he]
    simp [Except.map]
  rw [List.append_assoc, List.append_assoc, List.append_assoc, begins.parse_append, hlines]
  rfl

/-- Whatever ends with a line feed goes no further than the lines in front of the empty one. -/
theorem eq_of_append_lineEnd {h start : Bytes} (he : IsLineEnd e)
    (hstart : start.getLast? = some 0x0A) (heq : h ++ [0x0D, 0x0A] = start ++ e) : h = start := by
  rcases he with rfl | rfl
  · -- the carriage return would be the last byte of what ends with a line feed
    have heq : (h ++ [0x0D]) ++ [0x0A] = start ++ [0x0A] := by
      rw [← heq, List.append_assoc, List.cons_append, List.nil_append]
    rw [← List.append_cancel_right heq, List.getLast?_concat] at hstart
    exact absurd hstart (by decide)
  · exact List.append_cancel_right heq

/-- **A head that takes up all the bytes can be given more fields in front of its empty line**:
they are read behind its own, as long as there is room. -/
theorem parse_append {h : Bytes} {head : Head} (hh : parse (h ++ [0x0D, 0x0A]) = .ok (head, []))
    {more : Nat} (hroom : head.fields.length + more = maxFields) (x : Bytes) :
    parse (h ++ x) = (fieldLines more x).map fun (fs, rest) =>
      ({ head with fields := head.fields ++ fs }, rest) := by
  obtain ⟨start, all, begins, hb, hfields⟩ := parse_eq_ok hh
  obtain ⟨lines, e, spelled, he, rfl, -⟩ := fieldLines_eq_ok hfields
  -- the empty line may have been read as a lone line feed, which would leave a carriage return to `h`
  have hfront : h = start ++ lines.flatten := by
    refine eq_of_append_lineEnd he ?_ (by simpa using hb)
    rcases getLast?_flatten_spelled spelled with hnil | hlast
    · rw [hnil, List.append_nil]
      exact begins.getLast?
    · rw [List.getLast?_append, hlast]
      rfl
  rw [hfront, List.append_assoc, begins.parse_append, ← hroom, fieldLines_append spelled]
  cases fieldLines more x <;> rfl

end PbxAgent.Http.Head
