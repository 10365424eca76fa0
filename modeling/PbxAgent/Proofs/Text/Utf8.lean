import PbxAgent.Text.Utf8

/-!
# UTF-8 there and back

Text that was written is read as it was (`decode?_encode`): the bytes of a scalar are taken off as one,
whatever follows them (`scan_encodeChar`).
-/

namespace PbxAgent.Text.Utf8

/-! ## Bytes of a scalar -/

theorem encodeChars_cons (c : Char) (cs : List Char) :
    encodeChars (c :: cs) = encodeChar c ++ encodeChars cs :=
  List.flatMap_cons

theorem encodeChars_append (cs ds : List Char) :
    encodeChars (cs ++ ds) = encodeChars cs ++ encodeChars ds :=
  List.flatMap_append

theorem encode_append (s t : String) : encode (s ++ t) = encode s ++ encode t := by
  simp [encode, encodeChars]

theorem toNat_ofNat {n : Nat} (h : n < 0x100) : (UInt8.ofNat n).toNat = n := by
  simpa using h

/-- A byte of a scalar is the scalar itself, or none of ASCII. -/
theorem toNat_of_mem_encodeChar {c : Char} {b : UInt8} (h : b ∈ encodeChar c) :
    b.toNat = c.toNat ∨ 0x80 ≤ b.toNat := by
  have hvalid : c.toNat < 0xD800 ∨ 0xDFFF < c.toNat ∧ c.toNat < 0x110000 := c.valid
  unfold encodeChar at h
  generalize c.toNat = n at hvalid h ⊢
  dsimp only at h
  split at h
  · rw [List.mem_singleton] at h
    rw [h, toNat_ofNat (by omega)]
    exact .inl rfl
  right
  split at h
  · simp only [List.mem_cons, List.not_mem_nil, or_false] at h
    rcases h with rfl | rfl <;> rw [toNat_ofNat (by omega)] <;> omega
  split at h
  · simp only [List.mem_cons, List.not_mem_nil, or_false] at h
    rcases h with rfl | rfl | rfl <;> rw [toNat_ofNat (by omega)] <;> omega
  · simp only [List.mem_cons, List.not_mem_nil, or_false] at h
    rcases h with rfl | rfl | rfl | rfl <;> rw [toNat_ofNat (by omega)] <;> omega

/-! ## Numerals -/

theorem encodeChar_of_isDigit {c : Char} (h : c.isDigit = true) :
    ∃ d, encodeChar c = [d] ∧ 0x30 ≤ d ∧ d ≤ 0x39 := by
  simp only [Char.isDigit, Bool.and_eq_true, decide_eq_true_eq] at h
  obtain ⟨h₁, h₂⟩ := h
  have hlo : 48 ≤ c.toNat := h₁
  have hhi : c.toNat ≤ 57 := h₂
  refine ⟨UInt8.ofNat c.toNat, ?_, ?_, ?_⟩
  · simp only [encodeChar]
    rw [if_pos (by omega)]
  · rw [UInt8.le_iff_toNat_le, UInt8.toNat_ofNat']
    simp
    omega
  · rw [UInt8.le_iff_toNat_le, UInt8.toNat_ofNat']
    simp
    omega

theorem mem_encode_repr {n : Nat} {d : UInt8} (h : d ∈ encode n.repr) : 0x30 ≤ d ∧ d ≤ 0x39 := by
  rw [encode, encodeChars, List.mem_flatMap, Nat.toList_repr] at h
  obtain ⟨c, hc, hd⟩ := h
  obtain ⟨x, hx, hrange⟩ :=
    encodeChar_of_isDigit (Nat.isDigit_of_mem_toDigits (by decide) (by decide) hc)
  rw [hx, List.mem_singleton] at hd
  rw [hd]
  exact hrange

theorem length_encode_repr (n : Nat) : (encode n.repr).length = n.repr.length := by
  have hall : ∀ cs : List Char, (∀ c ∈ cs, c.isDigit = true) →
      (encodeChars cs).length = cs.length := by
    intro cs hcs
    induction cs with
    | nil => rfl
    | cons c cs ih =>
      obtain ⟨d, hd, -⟩ := encodeChar_of_isDigit (hcs c List.mem_cons_self)
      have hr := ih fun x hx => hcs x (List.mem_cons_of_mem _ hx)
      rw [encodeChars] at hr ⊢
      rw [List.flatMap_cons, hd, List.length_append, hr, List.length_singleton, List.length_cons]
      omega
  rw [encode, hall, String.length_toList]
  intro c hc
  rw [Nat.toList_repr] at hc
  exact Nat.isDigit_of_mem_toDigits (by decide) (by decide) hc

/-! ## Reading one scalar -/

/-- What the table of second bytes allows, in numbers. -/
theorem exists_secondRange {a b : UInt8} (hlo : 0xC2 ≤ a.toNat) (hhi : a.toNat ≤ 0xF4)
    (hb : 0x80 ≤ b.toNat ∧ b.toNat ≤ 0xBF) (hE0 : a.toNat = 0xE0 → 0xA0 ≤ b.toNat)
    (hED : a.toNat = 0xED → b.toNat ≤ 0x9F) (hF0 : a.toNat = 0xF0 → 0x90 ≤ b.toNat)
    (hF4 : a.toNat = 0xF4 → b.toNat ≤ 0x8F) :
    ∃ lo hi, secondRange a = some (lo, hi) ∧ lo ≤ b ∧ b ≤ hi := by
  simp only [secondRange, UInt8.lt_iff_toNat_lt, UInt8.le_iff_toNat_le, ← UInt8.toNat_inj,
    UInt8.reduceToNat, hhi, if_true]
  rw [if_neg (by omega)]
  split
  · exact ⟨_, _, rfl, by simp; omega, by simp; omega⟩
  split
  · exact ⟨_, _, rfl, by simp; omega, by simp; omega⟩
  split
  · exact ⟨_, _, rfl, by simp; omega, by simp; omega⟩
  split
  · exact ⟨_, _, rfl, by simp; omega, by simp; omega⟩
  · exact ⟨_, _, rfl, by simp; omega, by simp; omega⟩

theorem scan_one {a : UInt8} (h : a.toNat < 0x80) (r : Bytes) :
    scan (a :: r) = some (Char.ofNat a.toNat) :: scan r := by
  rw [scan, if_pos (UInt8.lt_iff_toNat_lt.2 h)]

theorem scan_two {a b : UInt8} (hlo : 0xC2 ≤ a.toNat) (hhi : a.toNat < 0xE0)
    (hb : 0x80 ≤ b.toNat ∧ b.toNat ≤ 0xBF) (r : Bytes) :
    scan (a :: b :: r)
      = some (Char.ofNat ((a.toNat - 0xC0) * 0x40 + tailBits b)) :: scan r := by
  obtain ⟨lo, hi, hrange, hb⟩ := exists_secondRange (a := a) hlo (by omega) hb (by omega) (by omega)
    (by omega) (by omega)
  have h80 : ¬ a < 0x80 := by
    rw [UInt8.lt_iff_toNat_lt]
    simp
    omega
  rw [scan, if_neg h80, hrange]
  dsimp only
  rw [if_neg (not_not_intro hb), if_pos (UInt8.lt_iff_toNat_lt.2 hhi)]

theorem scan_three {a b c : UInt8} (hlo : 0xE0 ≤ a.toNat) (hhi : a.toNat < 0xF0)
    (hb : 0x80 ≤ b.toNat ∧ b.toNat ≤ 0xBF) (hE0 : a.toNat = 0xE0 → 0xA0 ≤ b.toNat)
    (hED : a.toNat = 0xED → b.toNat ≤ 0x9F) (hc : isTail c = true) (r : Bytes) :
    scan (a :: b :: c :: r)
      = some (Char.ofNat ((a.toNat - 0xE0) * 0x1000 + tailBits b * 0x40 + tailBits c))
        :: scan r := by
  obtain ⟨lo, hi, hrange, hb⟩ := exists_secondRange (a := a) (by omega) (by omega) hb hE0 hED
    (by omega) (by omega)
  have h80 : ¬ a < 0x80 := by
    rw [UInt8.lt_iff_toNat_lt]
    simp
    omega
  have hE0 : ¬ a < 0xE0 := by
    rw [UInt8.lt_iff_toNat_lt]
    simp
    omega
  rw [scan, if_neg h80, hrange]
  dsimp only
  rw [if_neg (not_not_intro hb), if_neg hE0, hc, if_neg (by decide),
    if_pos (UInt8.lt_iff_toNat_lt.2 hhi)]

theorem scan_four {a b c d : UInt8} (hlo : 0xF0 ≤ a.toNat) (hhi : a.toNat ≤ 0xF4)
    (hb : 0x80 ≤ b.toNat ∧ b.toNat ≤ 0xBF) (hF0 : a.toNat = 0xF0 → 0x90 ≤ b.toNat)
    (hF4 : a.toNat = 0xF4 → b.toNat ≤ 0x8F) (hc : isTail c = true) (hd : isTail d = true)
    (r : Bytes) :
    scan (a :: b :: c :: d :: r)
      = some (Char.ofNat ((a.toNat - 0xF0) * 0x40000 + tailBits b * 0x1000 + tailBits c * 0x40
          + tailBits d)) :: scan r := by
  obtain ⟨lo, hi, hrange, hb⟩ := exists_secondRange (a := a) (by omega) (by omega) hb (by omega)
    (by omega) hF0 hF4
  have h80 : ¬ a < 0x80 := by
    rw [UInt8.lt_iff_toNat_lt]
    simp
    omega
  have hE0 : ¬ a < 0xE0 := by
    rw [UInt8.lt_iff_toNat_lt]
    simp
    omega
  have hF0 : ¬ a < 0xF0 := by
    rw [UInt8.lt_iff_toNat_lt]
    simp
    omega
  rw [scan, if_neg h80, hrange]
  dsimp only
  rw [if_neg (not_not_intro hb), if_neg hE0, hc, if_neg (by decide), if_neg hF0, hd,
    if_neg (by decide)]

/-! ## Reading what was written -/

/-- A byte with bits of a scalar in it. -/
theorem tail_ofNat (n : Nat) :
    (UInt8.ofNat (0x80 + n % 0x40)).toNat = 0x80 + n % 0x40
      ∧ isTail (UInt8.ofNat (0x80 + n % 0x40)) = true
      ∧ tailBits (UInt8.ofNat (0x80 + n % 0x40)) = n % 0x40 := by
  have h : (UInt8.ofNat (0x80 + n % 0x40)).toNat = 0x80 + n % 0x40 := toNat_ofNat (by omega)
  refine ⟨h, ?_, ?_⟩
  · simp only [isTail, Bool.and_eq_true, decide_eq_true_eq, UInt8.le_iff_toNat_le, h,
      UInt8.reduceToNat]
    omega
  · rw [tailBits, h]
    omega

theorem scan_encodeChar (c : Char) (r : Bytes) : scan (encodeChar c ++ r) = some c :: scan r := by
  have hvalid : c.toNat < 0xD800 ∨ 0xDFFF < c.toNat ∧ c.toNat < 0x110000 := c.valid
  have hc := c.ofNat_toNat
  unfold encodeChar
  generalize c.toNat = n at hvalid hc
  obtain ⟨h₀, t₀, b₀⟩ := tail_ofNat n
  obtain ⟨h₁, t₁, b₁⟩ := tail_ofNat (n / 0x40)
  obtain ⟨h₂, -, b₂⟩ := tail_ofNat (n / 0x1000)
  dsimp only
  split
  · have ha : (UInt8.ofNat n).toNat = n := toNat_ofNat (by omega)
    rw [List.singleton_append, scan_one (by omega), ha, hc]
  split
  · have ha : (UInt8.ofNat (0xC0 + n / 0x40)).toNat = 0xC0 + n / 0x40 := toNat_ofNat (by omega)
    have hn : (0xC0 + n / 0x40 - 0xC0) * 0x40 + n % 0x40 = n := by omega
    rw [List.cons_append, List.singleton_append, scan_two (by omega) (by omega) (by omega), ha, b₀,
      hn, hc]
  split
  · have ha : (UInt8.ofNat (0xE0 + n / 0x1000)).toNat = 0xE0 + n / 0x1000 :=
      toNat_ofNat (by omega)
    have hn : (0xE0 + n / 0x1000 - 0xE0) * 0x1000 + n / 0x40 % 0x40 * 0x40 + n % 0x40 = n := by
      omega
    rw [List.cons_append, List.cons_append, List.singleton_append,
      scan_three (by omega) (by omega) (by omega) (by omega) (by omega) t₀, ha, b₁, b₀, hn, hc]
  · have ha : (UInt8.ofNat (0xF0 + n / 0x40000)).toNat = 0xF0 + n / 0x40000 :=
      toNat_ofNat (by omega)
    have hn : (0xF0 + n / 0x40000 - 0xF0) * 0x40000 + n / 0x1000 % 0x40 * 0x1000
        + n / 0x40 % 0x40 * 0x40 + n % 0x40 = n := by
      omega
    rw [List.cons_append, List.cons_append, List.cons_append, List.singleton_append,
      scan_four (by omega) (by omega) (by omega) (by omega) (by omega) t₁ t₀, ha, b₂, b₁, b₀, hn,
      hc]

theorem scan_encodeChars (cs : List Char) (r : Bytes) :
    scan (encodeChars cs ++ r) = cs.map some ++ scan r := by
  induction cs with
  | nil => rfl
  | cons c cs ih =>
    rw [encodeChars_cons, List.append_assoc, scan_encodeChar, ih, List.map_cons, List.cons_append]

/-- All that was written is read as scalars, which leaves nothing to be replaced. -/
theorem scan_encode (cs : List Char) : scan (encodeChars cs) = cs.map some := by
  have hscan := scan_encodeChars cs []
  rwa [List.append_nil, show scan [] = [] from rfl, List.append_nil] at hscan

theorem decodeChars?_encodeChars (cs : List Char) : decodeChars? (encodeChars cs) = some cs := by
  rw [decodeChars?, scan_encode]
  induction cs with
  | nil => rfl
  | cons c cs ih => simp [ih]

/-- Text is read as it was written. -/
theorem decode?_encode (s : String) : decode? (encode s) = some s := by
  rw [decode?, encode, decodeChars?_encodeChars, Option.map_some, String.ofList_toList]

theorem encode_injective : Function.Injective encode := by
  intro s t h
  have hread := decode?_encode s
  rw [h, decode?_encode t, Option.some_inj] at hread
  exact hread.symm

theorem encode_eq_nil_iff {s : String} : encode s = [] ↔ s = "" := by
  constructor
  · intro h
    exact encode_injective h
  · rintro rfl
    rfl

theorem decodeLossy_encode (s : String) : decodeLossy (encode s) = s := by
  have hmap : (s.toList.map some).map (·.getD '\uFFFD') = s.toList := by
    rw [List.map_map]
    exact List.map_id _
  rw [decodeLossy, encode, scan_encode, hmap, String.ofList_toList]

theorem scan_ne_nil (c : UInt8) (r : Bytes) : scan (c :: r) ≠ [] := by
  unfold scan
  repeat' split
  all_goals exact List.cons_ne_nil _ _

/-- Bytes are never read as no text at all, well formed or not. -/
theorem decodeLossy_eq_empty_iff {b : Bytes} : decodeLossy b = "" ↔ b = [] := by
  cases b with
  | nil => simp [decodeLossy, scan]
  | cons c r => simp [decodeLossy, scan_ne_nil]

end PbxAgent.Text.Utf8
