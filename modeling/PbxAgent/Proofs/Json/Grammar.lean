import PbxAgent.Proofs.Fallible
import PbxAgent.Proofs.Json.Unique

/-!
# Texts of values by their grammar

What a text of a value may be, whoever wrote it (`IsValue`): blanks around every token, numbers of any
kind, strings with any escapes, nested to any depth. A value that nobody asked for is gone through to its
end and no further (`skipValue_of_isValue`).
-/

namespace PbxAgent.Json

open Text.Utf8 (encodeChar encodeChars)

/-! ## Blanks -/

/-- Bytes that are all blank. -/
abbrev Blanks := {b : Bytes // ∀ c ∈ b, isBlank c = true}

def noBlanks : Blanks := ⟨[], nofun⟩

@[simp] theorem noBlanks_append (b : Bytes) : noBlanks.1 ++ b = b := rfl

theorem skipBlank_blanks (ws : Blanks) (b : Bytes) : skipBlank (ws.1 ++ b) = skipBlank b :=
  List.dropWhile_append_of_pos ws.2

theorem skipBlank_blanks_cons {c : UInt8} (h : isBlank c = false) (ws : Blanks) (r : Bytes) :
    skipBlank (ws.1 ++ c :: r) = c :: r := by
  rw [skipBlank_blanks, skipBlank_of_not_isBlank h]

theorem value_blanks (ws : Blanks) (b : Bytes) : value (ws.1 ++ b) = value b := by
  simp only [value, skipBlank_blanks]

/-! ## Strings -/

/-- The letters that stand for one byte behind a backslash. -/
def escapeLetters : Bytes :=
  [quote, backslash, 0x2F, 0x62, 0x66, 0x6E, 0x72, 0x74]

/-- What may stand between the quotes of a string. -/
inductive StringBody : Bytes → Prop where
  | nil : StringBody []
  | plain {b : UInt8} {r : Bytes} (plain : IsPlain b) (rest : StringBody r) : StringBody (b :: r)
  | escape {e : UInt8} {r : Bytes} (letter : e ∈ escapeLetters) (rest : StringBody r) :
      StringBody (backslash :: e :: r)
  | unit {a b c d : UInt8} {n : Nat} {r : Bytes} (digits : hexUnit? a b c d = some n)
      (rest : StringBody r) : StringBody (backslash :: 0x75 :: a :: b :: c :: d :: r)

theorem simpleEscape?_of_mem {e : UInt8} (h : e ∈ escapeLetters) :
    e ≠ 0x75 ∧ ∃ b, simpleEscape? e = some b := by
  simp only [escapeLetters, List.mem_cons, List.not_mem_nil, or_false] at h
  rcases h with rfl | rfl | rfl | rfl | rfl | rfl | rfl | rfl
  all_goals exact ⟨by decide, _, rfl⟩

theorem skipString_quote (r : Bytes) : skipString (quote :: r) = .ok r := by
  rw [skipString.eq_def]
  exact if_pos rfl

theorem skipString_plain {b : UInt8} (h : IsPlain b) (r : Bytes) :
    skipString (b :: r) = skipString r := by
  obtain ⟨hquote, hcontrol, hslash⟩ := h
  rw [skipString.eq_def]
  dsimp only
  rw [if_neg hquote, if_neg hcontrol, if_pos hslash]

theorem skipString_escape {e b : UInt8} (hu : e ≠ 0x75) (he : simpleEscape? e = some b) (r : Bytes) :
    skipString (backslash :: e :: r) = skipString r := by
  rw [skipString.eq_def]
  dsimp only
  rw [if_neg (by decide), if_neg (by decide), if_neg (by decide), if_pos hu, he]

theorem skipString_unit {a b c d : UInt8} {n : Nat} (h : hexUnit? a b c d = some n) (r : Bytes) :
    skipString (backslash :: 0x75 :: a :: b :: c :: d :: r) = skipString r := by
  rw [skipString.eq_def]
  dsimp only
  rw [if_neg (by decide), if_neg (by decide), if_neg (by decide), if_neg (by decide), h]

theorem skipString_body {s : Bytes} (h : StringBody s) (r : Bytes) :
    skipString (s ++ quote :: r) = .ok r := by
  induction h with
  | nil => exact skipString_quote r
  | plain plain _ ih => exact (skipString_plain plain _).trans ih
  | escape letter _ ih =>
    obtain ⟨hu, b, he⟩ := simpleEscape?_of_mem letter
    exact (skipString_escape hu he _).trans ih
  | unit digits _ ih => exact (skipString_unit digits _).trans ih

theorem mem_escapeLetters {e b : UInt8} (h : simpleEscape? e = some b) : e ∈ escapeLetters := by
  simp only [escapeLetters, List.mem_cons, List.not_mem_nil, or_false]
  grind [simpleEscape?]

theorem stringBytes_quote (done r : Bytes) :
    stringBytes done (quote :: r) = .ok (done.reverse, r) := by
  rw [stringBytes.eq_def]
  exact if_pos rfl

theorem stringBytes_unit {a b c d : UInt8} {n : Nat} (h : hexUnit? a b c d = some n)
    (htrail : ¬ isTrailSurrogate n = true) (hlead : (!isLeadSurrogate n) = true) (done r : Bytes) :
    stringBytes done (backslash :: 0x75 :: a :: b :: c :: d :: r)
      = stringBytes (pushChar (Char.ofNat n) done) r := by
  rw [stringBytes.eq_def]
  dsimp only
  rw [if_neg (by decide), if_neg (by decide), if_neg (by decide), if_neg (by decide), h]
  dsimp only
  rw [if_neg htrail, if_pos hlead]

theorem stringBytes_pair {a b c d a' b' c' d' : UInt8} {n k : Nat} (h : hexUnit? a b c d = some n)
    (htrail : ¬ isTrailSurrogate n = true) (hlead : ¬ (!isLeadSurrogate n) = true)
    (h' : hexUnit? a' b' c' d' = some k) (htrail' : isTrailSurrogate k = true) (done r : Bytes) :
    stringBytes done
        (backslash :: 0x75 :: a :: b :: c :: d :: backslash :: 0x75 :: a' :: b' :: c' :: d' :: r)
      = stringBytes (pushChar (joinSurrogates n k) done) r := by
  rw [stringBytes.eq_def]
  dsimp only
  rw [if_neg (by decide), if_neg (by decide), if_neg (by decide), if_neg (by decide), h]
  dsimp only
  rw [if_neg htrail, if_neg hlead, if_neg (by decide), if_neg (by decide), h']
  dsimp only
  rw [if_pos htrail']

/-- A string that is read is read up to its closing quote, whatever follows that. -/
theorem exists_body_of_stringBytes {done b content r : Bytes}
    (h : stringBytes done b = .ok (content, r)) :
    ∃ s, StringBody s ∧ b = s ++ quote :: r
      ∧ ∀ r', stringBytes done (s ++ quote :: r') = .ok (content, r') := by
  fun_induction stringBytes done b with
  | case2 done r' =>
    cases h
    exact ⟨[], .nil, rfl, stringBytes_quote done⟩
  | case4 done c r' hquote hcontrol hslash ih =>
    obtain ⟨s, hs, rfl, hread⟩ := ih h
    have hplain : IsPlain c := ⟨hquote, hcontrol, hslash⟩
    refine ⟨c :: s, .plain hplain hs, rfl, fun r' => ?_⟩
    exact (stringBytes_plain (List.forall_mem_singleton.2 hplain) done _).trans (hread r')
  | case6 done c hquote hcontrol hslash e r' hu b he ih =>
    obtain rfl := Decidable.of_not_not hslash
    obtain ⟨s, hs, rfl, hread⟩ := ih h
    refine ⟨backslash :: e :: s, .escape (mem_escapeLetters he) hs, rfl, fun r' => ?_⟩
    exact (stringBytes_escape hu he done _).trans (hread r')
  | case10 done c hquote hcontrol hslash u hu v₃ v₂ v₁ v₀ r' n digits htrail hlead ih =>
    obtain rfl := Decidable.of_not_not hslash
    obtain rfl := Decidable.of_not_not hu
    obtain ⟨s, hs, rfl, hread⟩ := ih h
    refine ⟨backslash :: 0x75 :: v₃ :: v₂ :: v₁ :: v₀ :: s, .unit digits hs, rfl, fun r' => ?_⟩
    exact (stringBytes_unit digits htrail hlead done _).trans (hread r')
  | case16 done c hquote hcontrol hslash u hu v₃ v₂ v₁ v₀ n digits htrail hlead x hx y hy w₃ w₂ w₁ w₀ r'
      k digits' htrail' ih =>
    obtain rfl := Decidable.of_not_not hslash
    obtain rfl := Decidable.of_not_not hu
    obtain rfl := Decidable.of_not_not hx
    obtain rfl := Decidable.of_not_not hy
    obtain ⟨s, hs, rfl, hread⟩ := ih h
    refine ⟨backslash :: 0x75 :: v₃ :: v₂ :: v₁ :: v₀ ::
      backslash :: 0x75 :: w₃ :: w₂ :: w₁ :: w₀ :: s, .unit digits (.unit digits' hs), rfl,
      fun r' => ?_⟩
    exact (stringBytes_pair digits htrail hlead digits' htrail' done _).trans (hread r')
  | _ => cases h

/-- Reading a string and going through it stop at the same place. -/
theorem skipString_of_stringBytes {done b content r : Bytes}
    (h : stringBytes done b = .ok (content, r)) : skipString b = .ok r := by
  obtain ⟨s, hs, rfl, -⟩ := exists_body_of_stringBytes h
  exact skipString_body hs r

theorem stringBody_escaped (s : String) : StringBody (encodeChars (s.toList.flatMap escapeChar)) := by
  obtain ⟨body, hbody, heq, -⟩ := exists_body_of_stringBytes (stringBytes_escaped s.toList [] [])
  rw [List.append_cancel_right heq]
  exact hbody

/-! ## Numbers -/

/-- Digits, one at least. -/
abbrev Digits := {b : Bytes // b ≠ [] ∧ ∀ c ∈ b, isDigit c = true}

/-- The digits before the point: a zero stands alone. -/
inductive IsWhole : Bytes → Prop where
  | zero : IsWhole [0x30]
  | digits (ds : Digits) (h : ds.1.head? ≠ some 0x30) : IsWhole ds.1

/-- A point and digits, or nothing. -/
inductive IsFraction : Bytes → Prop where
  | none : IsFraction []
  | digits (ds : Digits) : IsFraction (0x2E :: ds.1)

/-- A letter, a sign perhaps, and digits, or nothing. -/
inductive IsExponent : Bytes → Prop where
  | none : IsExponent []
  | digits {letter : UInt8} (h : letter = 0x65 ∨ letter = 0x45) {sign : Bytes}
      (hsign : sign ∈ [[], [0x2B], [0x2D]]) (ds : Digits) : IsExponent (letter :: (sign ++ ds.1))

/-- A number without its sign. -/
inductive IsNumber : Bytes → Prop where
  | parts {whole fraction exponent : Bytes} (hwhole : IsWhole whole) (hfraction : IsFraction fraction)
      (hexponent : IsExponent exponent) : IsNumber (whole ++ (fraction ++ exponent))

/-- Whether a text does not go on with anything that a number may. -/
def Settled (r : Bytes) : Prop :=
  ∀ c ∈ r.head?, isDigit c = false ∧ c ≠ 0x2E ∧ c ≠ 0x65 ∧ c ≠ 0x45

theorem Settled.halts {r : Bytes} (h : Settled r) : Halts r :=
  fun c hc => (h c hc).1

theorem dropWhile_digits (ds : Digits) {r : Bytes} (hr : Halts r) :
    (ds.1 ++ r).dropWhile isDigit = r := by
  rw [List.dropWhile_append_of_pos ds.2.2]
  cases r with
  | nil => rfl
  | cons c r =>
    have hc : isDigit c = false := hr c rfl
    rw [List.dropWhile_cons_of_neg (by simp [hc])]

theorem Digits.exists_cons (ds : Digits) :
    ∃ c r, ds.1 = c :: r ∧ isDigit c = true ∧ ∀ d ∈ r, isDigit d = true := by
  obtain ⟨b, hne, hall⟩ := ds
  obtain ⟨c, r, rfl⟩ := List.exists_cons_of_ne_nil hne
  exact ⟨c, r, rfl, List.forall_mem_cons.1 hall⟩

theorem exists_digit?_succ {c : UInt8} (h : isDigit c = true) (hc : c ≠ 0x30) :
    ∃ d, Bytes.digit? c = some (d + 1) := by
  unfold isDigit Bytes.digit? at h
  unfold Bytes.digit?
  split at h
  next hrange =>
    rw [if_pos hrange]
    have hlow : 0x30 ≤ c.toNat := hrange.1
    have hne : c.toNat ≠ 0x30 := fun heq => hc (UInt8.toNat_inj.1 heq)
    exact ⟨c.toNat - 0x31, congrArg some (by omega)⟩
  · cases h

theorem skipNumber_whole {w r : Bytes} (h : IsWhole w) (hr : Halts r) :
    skipNumber.whole (w ++ r) = .ok r := by
  cases h with
  | zero =>
    have hhead : (r.head?.map isDigit).getD false = false := by
      cases r with
      | nil => rfl
      | cons c r => exact hr c rfl
    have hzero : Bytes.digit? 0x30 = some 0 := rfl
    show skipNumber.whole (0x30 :: r) = _
    simp only [skipNumber.whole, hzero, hhead, Bool.false_eq_true, if_false]
  | digits ds h =>
    have hdrop := dropWhile_digits ds hr
    obtain ⟨c, t, hds, hc, -⟩ := ds.exists_cons
    rw [hds] at h hdrop ⊢
    rw [List.cons_append, List.dropWhile_cons_of_pos hc] at hdrop
    have hne : c ≠ 0x30 := fun heq => h (congrArg some heq)
    obtain ⟨d, hd⟩ := exists_digit?_succ hc hne
    rw [List.cons_append, skipNumber.whole, hd, hdrop]
    rfl

theorem skipExponent_digits {sign r : Bytes} (hsign : sign ∈ [[], [0x2B], [0x2D]]) (ds : Digits)
    (hr : Halts r) : skipExponent (sign ++ (ds.1 ++ r)) = .ok r := by
  have hdrop := dropWhile_digits ds hr
  obtain ⟨c, t, hds, hc, -⟩ := ds.exists_cons
  rw [hds, List.cons_append] at hdrop ⊢
  rw [List.dropWhile_cons_of_pos hc] at hdrop
  simp only [List.mem_cons, List.not_mem_nil, or_false] at hsign
  rcases hsign with rfl | rfl | rfl
  · have hplus : c ≠ 0x2B := by rintro rfl; cases hc
    have hminus : c ≠ 0x2D := by rintro rfl; cases hc
    rw [List.nil_append, skipExponent]
    · rw [if_pos hc, hdrop]
    · exact fun _ heq => hplus (List.cons.inj heq).1
    · exact fun _ heq => hminus (List.cons.inj heq).1
  · simp only [skipExponent, List.cons_append, List.nil_append, hc, if_true, hdrop]
  · simp only [skipExponent, List.cons_append, List.nil_append, hc, if_true, hdrop]

theorem halts_exponent {x r : Bytes} (h : IsExponent x) (hr : Settled r) : Halts (x ++ r) := by
  cases h with
  | none => exact hr.halts
  | digits hletter _ _ =>
    rcases hletter with rfl | rfl
    · exact halts_cons (by decide) _
    · exact halts_cons (by decide) _

theorem halts_fraction {f x r : Bytes} (hf : IsFraction f) (hx : IsExponent x) (hr : Settled r) :
    Halts (f ++ (x ++ r)) := by
  cases hf with
  | none =>
    rw [List.nil_append]
    exact halts_exponent hx hr
  | digits ds => exact halts_cons (by decide) _

theorem countDigits_digits (ds : Digits) {r : Bytes} (hr : Halts r) :
    ∃ n, countDigits (ds.1 ++ r) = (n + 1, r) := by
  have hdrop := dropWhile_digits ds hr
  obtain ⟨c, t, hds, hc, -⟩ := ds.exists_cons
  rw [hds, List.cons_append] at hdrop ⊢
  refine ⟨(List.takeWhile isDigit (t ++ r)).length, ?_⟩
  rw [countDigits, hdrop, List.takeWhile_cons_of_pos hc, List.length_cons]

theorem skipNumber_number {t r : Bytes} (h : IsNumber t) (hr : Settled r) :
    skipNumber (t ++ r) = .ok r := by
  cases h with
  | @parts w f x hwhole hfraction hexponent =>
    rw [List.append_assoc, List.append_assoc, skipNumber,
      skipNumber_whole hwhole (halts_fraction hfraction hexponent hr), ok_bind]
    cases hfraction with
    | none =>
      rw [List.nil_append]
      cases hexponent with
      | none =>
        rw [List.nil_append]
        cases r with
        | nil => rfl
        | cons c r =>
          obtain ⟨-, hpoint, hlower, hupper⟩ := hr c rfl
          split
          next heq => exact absurd (List.cons.inj heq).1 hpoint
          next heq => exact absurd (List.cons.inj heq).1 hlower
          next heq => exact absurd (List.cons.inj heq).1 hupper
          next => rfl
      | @digits letter hletter sign hsign ds =>
        have hskip := skipExponent_digits hsign ds hr.halts
        rw [List.cons_append, List.append_assoc]
        rcases hletter with rfl | rfl
        · exact hskip
        · exact hskip
    | digits ds =>
      obtain ⟨n, hcount⟩ := countDigits_digits ds (halts_exponent hexponent hr)
      rw [List.cons_append]
      simp only [hcount, Nat.succ_ne_zero, if_false]
      cases hexponent with
      | none =>
        rw [List.nil_append]
        cases r with
        | nil => rfl
        | cons c r =>
          obtain ⟨-, -, hlower, hupper⟩ := hr c rfl
          exact if_neg (not_or.2 ⟨hlower, hupper⟩)
      | @digits letter hletter sign hsign ds =>
        have hskip := skipExponent_digits hsign ds hr.halts
        rw [List.cons_append, List.append_assoc]
        exact (if_pos hletter).trans hskip

/-! ## Values -/

/-- The texts of values that have no parts. -/
inductive IsScalar : Bytes → Prop where
  | null : IsScalar (0x6E :: ull)
  | true : IsScalar (0x74 :: rue)
  | false : IsScalar (0x66 :: alse)
  | number {t : Bytes} (h : IsNumber t) : IsScalar t
  | negative {t : Bytes} (h : IsNumber t) : IsScalar (0x2D :: t)
  | string {s : Bytes} (h : StringBody s) : IsScalar (quote :: (s ++ [quote]))

/-- A part of a list or an object, with the blanks around the comma in front of it. -/
structure Part where
  gap : Blanks
  lead : Blanks
  text : Bytes

/-- Parts one after the other; there is no comma in front of the first. -/
def joined (first : Bool) : List Part → Bytes
  | [] => []
  | p :: ps => p.gap.1 ++ (separator first ++ (p.lead.1 ++ (p.text ++ joined false ps)))

/-- The blanks of a member: around the comma in front of it, and around its colon. -/
structure Spacing where
  gap : Blanks
  lead : Blanks
  behind : Blanks
  ahead : Blanks

/-- A member of an object: what stands between the quotes of its key, and the text of its value. -/
structure Entry where
  spacing : Spacing
  key : Bytes
  value : Bytes

def Entry.part (e : Entry) : Part where
  gap := e.spacing.gap
  lead := e.spacing.lead
  text := quote :: (e.key ++ quote :: (e.spacing.behind.1 ++ 0x3A :: (e.spacing.ahead.1 ++ e.value)))

def Bracket.opening : Bracket → UInt8
  | list => 0x5B
  | object => 0x7B

/-- Parts in brackets, with blanks in front of the closing one. -/
def Bracket.enclose (br : Bracket) (ps : List Part) (gap : Blanks) : Bytes :=
  br.opening :: (joined true ps ++ (gap.1 ++ [br.closing]))

/-- The texts of values. -/
inductive IsValue : Bytes → Prop where
  | scalar {t : Bytes} (h : IsScalar t) : IsValue t
  | list {ps : List Part} (h : ∀ p ∈ ps, IsValue p.text) (gap : Blanks) :
      IsValue (Bracket.list.enclose ps gap)
  | object {es : List Entry} (keys : ∀ e ∈ es, StringBody e.key) (values : ∀ e ∈ es, IsValue e.value)
      (gap : Blanks) : IsValue (Bracket.object.enclose (es.map Entry.part) gap)

/-! ## Going through a value -/

section
variable {stack : List Bracket} {t r : Bytes}

theorem skipStep_blanks (ws : Blanks) (b : Bytes) :
    skipStep (.value stack) (ws.1 ++ b) = skipStep (.value stack) b := by
  simp only [skipStep, value_blanks]

theorem skipStep_digit {c : UInt8} (h : isDigit c = true) :
    skipStep (.value stack) (c :: r) = (skipNumber (c :: r)).map (.after stack, ·) := by
  have hne : ∀ d, isDigit d = false → c ≠ d := by
    rintro d hd rfl
    rw [hd] at h
    cases h
  have hblank : isBlank c = false := (Kind.of_ofByte? (Kind.ofByte?_of_isDigit h)).1
  rw [skipStep, value_of_not_isBlank hblank, ok_bind]
  dsimp only
  rw [if_neg (hne _ (by decide)), if_neg (hne _ (by decide)), if_neg (hne _ (by decide)),
    if_neg (hne _ (by decide)), if_pos h]
  rfl

theorem IsNumber.exists_cons (h : IsNumber t) : ∃ c r, t = c :: r ∧ isDigit c = true := by
  cases h with
  | parts hwhole _ _ =>
    cases hwhole with
    | zero => exact ⟨_, _, rfl, rfl⟩
    | digits ds _ =>
      obtain ⟨c, r, hds, hc, -⟩ := ds.exists_cons
      rw [hds]
      exact ⟨c, _, rfl, hc⟩

/-- A value without parts is taken in one step. -/
theorem skipStep_scalar (h : IsScalar t) (hr : Settled r) :
    skipStep (.value stack) (t ++ r) = .ok (.after stack, r) := by
  cases h with
  | null => rfl
  | true => rfl
  | false => rfl
  | number h =>
    have hskip := skipNumber_number h hr
    obtain ⟨c, t, rfl, hc⟩ := h.exists_cons
    rw [List.cons_append] at hskip ⊢
    rw [skipStep_digit hc, hskip]
    rfl
  | @negative t h =>
    show (skipNumber (t ++ r)).map _ = _
    rw [skipNumber_number h hr]
    rfl
  | @string s h =>
    show (skipString (s ++ [quote] ++ r)).map _ = _
    rw [List.append_assoc, List.singleton_append, skipString_body h]
    rfl

/-! ## Going through the parts -/

theorem settled_blanks {c : UInt8} (hc : isDigit c = false ∧ c ≠ 0x2E ∧ c ≠ 0x65 ∧ c ≠ 0x45)
    (ws : Blanks) (b : Bytes) : Settled (ws.1 ++ c :: b) := by
  obtain ⟨ws, hblank⟩ := ws
  cases ws with
  | nil =>
    intro d hd
    cases hd
    exact hc
  | cons d ws =>
    intro e he
    cases he
    have hd := hblank d List.mem_cons_self
    simp only [isBlank, Bool.or_eq_true, decide_eq_true_eq] at hd
    rcases hd with ((rfl | rfl) | rfl) | rfl <;> decide

theorem settled_joined (br : Bracket) (ps : List Part) (gap : Blanks) (b : Bytes) :
    Settled (joined false ps ++ (gap.1 ++ br.closing :: b)) := by
  cases ps with
  | nil =>
    refine settled_blanks ?_ gap b
    cases br <;> decide
  | cons p ps =>
    simp only [joined, List.append_assoc]
    exact settled_blanks (by decide) p.gap _

theorem skipSteps_done (fuel : Nat) (b : Bytes) : skipSteps fuel .done b = .ok b := by
  cases fuel <;> rfl

theorem skipSteps_succ {s s' : SkipState} {b b' : Bytes} (h : skipStep s b = .ok (s', b'))
    (hs : s ≠ .done) (fuel : Nat) :
    skipSteps (fuel + 1) s b = skipSteps fuel s' b' := by
  rw [skipSteps, h, ok_bind]
  exact hs

/-- Whether a text is gone through as one value, wherever it stands. -/
def Passes (t : Bytes) : Prop :=
  ∀ (stack : List Bracket) (front : Blanks) (r : Bytes), Settled r →
    ∃ n, n < 2 * t.length ∧ ∀ fuel,
      skipSteps (n + fuel) (.value stack) (front.1 ++ (t ++ r)) = skipSteps fuel (.after stack) r

/-- Whether a part may stand in brackets of a kind: behind the key that it needs in an object, there is a
value that can be gone through. -/
structure Part.Fits (br : Bracket) (p : Part) : Prop where
  head : ∃ c r, p.text = c :: r ∧ isBlank c = false ∧ c ≠ br.closing
  value : ∃ v, Passes v ∧ v.length ≤ p.text.length ∧ ∀ (ws : Blanks) more, ∃ front : Blanks,
    skipKey br (ws.1 ++ (p.text ++ more)) = .ok (front.1 ++ (v ++ more))

theorem skipStep_closing (br : Bracket) (comma : Bool) (gap : Blanks) (r : Bytes) :
    skipStep (.inside comma br stack) (gap.1 ++ br.closing :: r) = .ok (.after stack, r) := by
  have hblank : isBlank br.closing = false := by cases br <;> decide
  have hcomma : br.closing ≠ 0x2C := by cases br <;> decide
  rw [skipStep, skipBlank_blanks_cons hblank]
  dsimp only
  rw [if_neg (fun h => hcomma h.2), if_pos rfl]

/-- One step brings to the value of the next part. -/
theorem skipStep_part {br : Bracket} {p : Part} (h : p.Fits br) (comma : Bool) (more : Bytes) :
    ∃ v, Passes v ∧ v.length ≤ p.text.length ∧ ∃ front : Blanks,
      skipStep (.inside comma br stack)
          (p.gap.1 ++ (separator (!comma) ++ (p.lead.1 ++ (p.text ++ more))))
        = .ok (.value (br :: stack), front.1 ++ (v ++ more)) := by
  obtain ⟨c, u, htext, hblank, hclosing⟩ := h.head
  obtain ⟨v, hpasses, hlength, hkey⟩ := h.value
  refine ⟨v, hpasses, hlength, ?_⟩
  cases comma with
  | true =>
    obtain ⟨front, hfront⟩ := hkey p.lead more
    refine ⟨front, ?_⟩
    show skipStep _ (p.gap.1 ++ 0x2C :: (p.lead.1 ++ (p.text ++ more))) = _
    rw [skipStep, skipBlank_blanks_cons (by decide)]
    dsimp only
    rw [if_pos ⟨rfl, rfl⟩, hfront]
    rfl
  | false =>
    obtain ⟨front, hfront⟩ := hkey noBlanks more
    refine ⟨front, ?_⟩
    show skipStep _ (p.gap.1 ++ (p.lead.1 ++ (p.text ++ more))) = _
    rw [noBlanks_append] at hfront
    rw [htext, List.cons_append] at hfront ⊢
    rw [skipStep, skipBlank_blanks, skipBlank_blanks_cons hblank]
    dsimp only
    rw [if_neg (by simp), if_neg hclosing, if_neg (by simp), hfront]
    rfl

/-- All steps from behind an opening bracket, or behind a part, to behind the closing bracket. -/
theorem skipSteps_parts {br : Bracket} {ps : List Part} (h : ∀ p ∈ ps, p.Fits br) (gap : Blanks)
    (comma : Bool) (r : Bytes) :
    ∃ n, n ≤ 2 * (joined (!comma) ps ++ (gap.1 ++ [br.closing])).length ∧ ∀ fuel,
      skipSteps (n + fuel) (.inside comma br stack)
          (joined (!comma) ps ++ (gap.1 ++ br.closing :: r))
        = skipSteps fuel (.after stack) r := by
  induction ps generalizing comma with
  | nil =>
    refine ⟨1, ?_, ?_⟩
    · simp only [List.length_append, List.length_cons]
      omega
    · intro fuel
      rw [Nat.add_comm]
      exact skipSteps_succ (skipStep_closing br comma gap r) nofun fuel
  | cons p ps ih =>
    obtain ⟨hp, hps⟩ := List.forall_mem_cons.1 h
    obtain ⟨n, hn, hrest⟩ := ih hps true
    obtain ⟨v, hpasses, hlength, front, hstep⟩ :=
      skipStep_part hp comma (joined false ps ++ (gap.1 ++ br.closing :: r))
    obtain ⟨k, hk, hvalue⟩ := hpasses (br :: stack) front _ (settled_joined br ps gap r)
    -- One step to the value of the part, those through the value, and those through the other parts.
    refine ⟨k + n + 1, ?_, ?_⟩
    · simp only [joined, List.length_append, Bool.not_true] at hn ⊢
      omega
    · intro fuel
      have hsplit : k + n + 1 + fuel = k + (n + fuel) + 1 := by omega
      simp only [joined, List.append_assoc]
      rw [hsplit, skipSteps_succ hstep nofun, hvalue]
      exact hrest fuel

/-! ## Going through a whole value -/

/-- A value begins with something that is neither blank nor the end of a list. -/
theorem IsValue.exists_cons (h : IsValue t) :
    ∃ c r, t = c :: r ∧ isBlank c = false ∧ c ≠ 0x5D := by
  cases h with
  | scalar h =>
    cases h with
    | number h =>
      obtain ⟨c, r, rfl, hc⟩ := h.exists_cons
      exact ⟨c, r, rfl, Kind.of_ofByte? (Kind.ofByte?_of_isDigit hc)⟩
    | _ => exact ⟨_, _, rfl, by decide, by decide⟩
  | list _ _ => exact ⟨_, _, rfl, by decide, by decide⟩
  | object _ _ _ => exact ⟨_, _, rfl, by decide, by decide⟩

theorem Part.fits_list {p : Part} (h : IsValue p.text) (passes : Passes p.text) :
    p.Fits .list where
  head := h.exists_cons
  value := ⟨p.text, passes, Nat.le_refl _, fun ws _ => ⟨ws, rfl⟩⟩

theorem colon_behind (ws : Blanks) (b : Bytes) : colon (ws.1 ++ 0x3A :: b) = .ok b := by
  rw [colon, skipBlank_blanks_cons (by decide)]
  rfl

theorem Entry.fits_object {e : Entry} (key : StringBody e.key) (passes : Passes e.value) :
    e.part.Fits .object where
  head := ⟨_, _, rfl, by decide, by decide⟩
  value := by
    refine ⟨e.value, passes, ?_, fun ws more => ⟨e.spacing.ahead, ?_⟩⟩
    · simp only [Entry.part, List.length_cons, List.length_append]
      omega
    · simp only [Entry.part, List.cons_append, List.append_assoc]
      rw [skipKey, skipBlank_blanks_cons (by decide)]
      dsimp only
      rw [if_pos rfl, skipString_body key, ok_bind, colon_behind]

theorem passes_scalar (h : IsScalar t) : Passes t := by
  intro stack front r hr
  refine ⟨1, ?_, ?_⟩
  · have hpos : 0 < t.length := by
      obtain ⟨c, u, rfl, -⟩ := (IsValue.scalar h).exists_cons
      exact Nat.succ_pos _
    omega
  · intro fuel
    rw [Nat.add_comm]
    exact skipSteps_succ ((skipStep_blanks front _).trans (skipStep_scalar h hr)) nofun fuel

theorem skipStep_opening (br : Bracket) (r : Bytes) :
    skipStep (.value stack) (br.opening :: r) = .ok (.inside false br stack, r) := by
  cases br <;> rfl

/-- What stands in brackets passes if the parts fit; the first step goes over the opening bracket. -/
theorem exists_steps {br : Bracket} {ps : List Part} (h : ∀ p ∈ ps, p.Fits br) (gap : Blanks)
    (stack : List Bracket) (front : Blanks) (r : Bytes) :
    ∃ b n, skipStep (.value stack) (front.1 ++ (br.enclose ps gap ++ r)) = .ok (.inside false br stack, b)
      ∧ n + 1 < 2 * (br.enclose ps gap).length ∧ n ≤ 2 * b.length
      ∧ ∀ fuel, skipSteps (n + fuel) (.inside false br stack) b = skipSteps fuel (.after stack) r := by
  obtain ⟨n, hn, hsteps⟩ := skipSteps_parts h gap false r
  have hbytes : br.enclose ps gap ++ r
      = br.opening :: (joined true ps ++ (gap.1 ++ br.closing :: r)) := by
    simp [Bracket.enclose]
  refine ⟨_, n, ?_, ?_, ?_, hsteps⟩
  · rw [hbytes, skipStep_blanks, skipStep_opening]
    rfl
  · simp only [Bracket.enclose, List.length_cons, List.length_append, Bool.not_false] at hn ⊢
    omega
  · simp only [List.length_cons, List.length_append, List.length_nil, Bool.not_false] at hn ⊢
    omega

theorem passes_enclose {br : Bracket} {ps : List Part} (h : ∀ p ∈ ps, p.Fits br) (gap : Blanks) :
    Passes (br.enclose ps gap) := by
  intro stack front r _
  obtain ⟨b, n, hstep, hn, -, hsteps⟩ := exists_steps h gap stack front r
  refine ⟨n + 1, hn, ?_⟩
  intro fuel
  have hsplit : n + 1 + fuel = n + fuel + 1 := by omega
  rw [hsplit, skipSteps_succ hstep nofun, hsteps]

/-- A value is without parts, or in brackets with parts that fit. -/
theorem IsValue.parts (h : IsValue t) :
    IsScalar t ∨ ∃ br ps gap, (∀ p ∈ ps, Part.Fits br p) ∧ t = br.enclose ps gap := by
  -- A part fits as soon as its value passes, and that follows from either shape that the value has.
  have passes : ∀ {t}, (IsScalar t ∨ ∃ br ps gap, (∀ p ∈ ps, Part.Fits br p) ∧ t = br.enclose ps gap) →
      Passes t := by
    rintro t (hscalar | ⟨br, ps, gap, hfits, rfl⟩)
    · exact passes_scalar hscalar
    · exact passes_enclose hfits gap
  induction h with
  | scalar h => exact .inl h
  | @list ps h gap ih =>
    refine .inr ⟨.list, ps, gap, ?_, rfl⟩
    intro p hp
    exact Part.fits_list (h p hp) (passes (ih p hp))
  | @object es keys values gap ih =>
    refine .inr ⟨.object, es.map Entry.part, gap, ?_, rfl⟩
    rw [List.forall_mem_map]
    intro e he
    exact Entry.fits_object (keys e he) (passes (ih e he))

/-- **A value is gone through to its end**, whatever it is and whatever follows. -/
theorem skipValue_of_isValue (h : IsValue t) (front : Blanks) (hr : Settled r) :
    skipValue (front.1 ++ (t ++ r)) = .ok r := by
  rcases h.parts with hscalar | ⟨br, ps, gap, hfits, rfl⟩
  · rw [skipValue, skipStep_blanks, skipStep_scalar hscalar hr]
    rfl
  · obtain ⟨b, n, hstep, -, hn, hsteps⟩ := exists_steps hfits gap [] front r
    -- The fuel lasts, since the steps are at most two for each byte behind the opening bracket.
    have hfuel : 2 * b.length + 1 = n + (2 * b.length + 1 - n) := by omega
    rw [skipValue, hstep, ok_bind]
    dsimp only
    rw [hfuel, hsteps]
    exact skipSteps_done _ r

end

/-! ## Values as they are written -/

/-- A part with no blanks. -/
def Part.plain (text : Bytes) : Part := ⟨noBlanks, noBlanks, text⟩

/-- A member with no blanks, its key as it is written for a name. -/
def Entry.plain (name : String) (value : Bytes) : Entry where
  spacing := ⟨noBlanks, noBlanks, noBlanks, noBlanks⟩
  key := encodeChars (name.toList.flatMap escapeChar)
  value := value

theorem joined_plain (first : Bool) (ts : List Bytes) :
    joined first (ts.map Part.plain) = separated first ts := by
  induction ts generalizing first with
  | nil => rfl
  | cons t ts ih =>
    rw [List.map_cons, joined, ih]
    rfl

theorem part_plain (m : String × Value) :
    (Entry.plain m.1 m.2.bytes).part = Part.plain (memberBytes m) := by
  simp [Entry.plain, Entry.part, Part.plain, memberBytes, bytes_string]

theorem bytes_list_enclose (vs : List Value) :
    (Value.list vs).bytes = Bracket.list.enclose ((vs.map Value.bytes).map Part.plain) noBlanks := by
  rw [bytes_list, Bracket.enclose, joined_plain]
  rfl

theorem bytes_object_enclose (ms : List (String × Value)) :
    (Value.object ms).bytes
      = Bracket.object.enclose ((ms.map fun m => Entry.plain m.1 m.2.bytes).map Entry.part) noBlanks := by
  have hparts : (ms.map fun m => Entry.plain m.1 m.2.bytes).map Entry.part
      = (ms.map memberBytes).map Part.plain := by
    simp only [List.map_map, Function.comp_def, part_plain]
  rw [hparts, bytes_object, Bracket.enclose, joined_plain]
  rfl

/-- A number that is not zero does not begin with a zero. -/
theorem head?_natural_ne {n : Nat} (h : n ≠ 0) : (Value.natural n).bytes.head? ≠ some 0x30 := by
  induction n using Nat.strongRecOn with
  | ind n ih =>
    show (encodeChars (Nat.toDigits 10 n)).head? ≠ some 0x30
    rcases Nat.lt_or_ge n 10 with hlt | hge
    · have hdigit : ∀ d < 10, d ≠ 0 → (encodeChars [Nat.digitChar d]).head? ≠ some 0x30 := by decide
      rw [Nat.toDigits_of_lt_base hlt]
      exact hdigit n hlt h
    · have hfront := ih (n / 10) (by omega) (by omega)
      obtain ⟨c, r, hbytes⟩ := List.exists_cons_of_ne_nil (bytes_natural_ne_nil (n / 10))
      rw [hbytes] at hfront
      have hbytes : encodeChars (Nat.toDigits 10 (n / 10)) = c :: r := hbytes
      rw [Nat.toDigits_of_base_le (by decide) hge, Text.Utf8.encodeChars_append, hbytes]
      exact hfront

theorem isNumber_natural (n : Nat) : IsNumber (Value.natural n).bytes := by
  have hwhole : IsWhole (Value.natural n).bytes := by
    cases n with
    | zero => exact .zero
    | succ n =>
      exact .digits ⟨_, bytes_natural_ne_nil (n + 1), fun c => isDigit_of_mem_bytes⟩
        (head?_natural_ne (Nat.succ_ne_zero n))
  have hnumber := IsNumber.parts hwhole .none .none
  rwa [List.append_nil, List.append_nil] at hnumber

mutual

/-- What is written for a value is the text of one. -/
theorem Value.isValue : ∀ v : Value, IsValue v.bytes
  | .null => .scalar .null
  | .flag true => .scalar .true
  | .flag false => .scalar .false
  | .natural n => .scalar (.number (isNumber_natural n))
  | .string s => by
    rw [bytes_string]
    exact .scalar (.string (stringBody_escaped s))
  | .list vs => by
    rw [bytes_list_enclose]
    refine .list ?_ noBlanks
    rw [List.map_map, List.forall_mem_map]
    exact isValue_elements vs
  | .object ms => by
    rw [bytes_object_enclose]
    refine .object ?_ ?_ noBlanks
    · exact List.forall_mem_map.2 fun m _ => stringBody_escaped m.1
    · exact List.forall_mem_map.2 (isValue_members ms)

theorem isValue_elements : ∀ vs : List Value, ∀ v ∈ vs, IsValue v.bytes
  | [] => fun _ hv => absurd hv List.not_mem_nil
  | v :: vs => List.forall_mem_cons.2 ⟨v.isValue, isValue_elements vs⟩

theorem isValue_members : ∀ ms : List (String × Value), ∀ m ∈ ms, IsValue m.2.bytes
  | [] => fun _ hm => absurd hm List.not_mem_nil
  | (_, v) :: ms => List.forall_mem_cons.2 ⟨v.isValue, isValue_members ms⟩

end

end PbxAgent.Json
