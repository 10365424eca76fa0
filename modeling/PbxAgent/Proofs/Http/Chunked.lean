import Mathlib.Data.Nat.Digits.Lemmas
import PbxAgent.Proofs.Http.Inline

/-!
# Bodies in chunks

What a sender may write for a size and for a chunk, and that it is read back: the data of the chunks
is the body, however the sizes are spelled, wherever the body is cut and whatever follows the last
size (`decode_chunks`). Whoever wrote it, a size is read off its own line alone (`sizeLine_eq_ok`), and
a body off the bytes up to the end of its last size line (`decode_append`).
-/

namespace PbxAgent.Http.Chunked

/-! ## Hexadecimal numerals -/

/-- The number that hexadecimal digits of either case stand for. -/
def hexNumber? (digits : Bytes) : Option Nat :=
  (digits.mapM Bytes.hexDigit?).map fun ds => Nat.ofDigits 16 ds.reverse

theorem hexDigit?_ne {c : UInt8} {d : Nat} (h : Bytes.hexDigit? c = some d) :
    c ≠ 0x0D ∧ c ≠ 0x3B ∧ ¬ (c = 0x20 ∨ c = 0x09) := by
  refine ⟨?_, ?_, ?_⟩
  · rintro rfl
    cases h
  · rintro rfl
    cases h
  · rintro (rfl | rfl) <;> cases h

theorem eq_of_hexDigit?_zero {c : UInt8} (h : Bytes.hexDigit? c = some 0) : c = 0x30 := by
  unfold Bytes.hexDigit? at h
  simp only [UInt8.le_iff_toNat_le, ← UInt8.toNat_inj] at h ⊢
  split at h
  · simp at *; omega
  split at h
  · simp at *; omega
  split at h
  · simp at *; omega
  · cases h

theorem hexDigit?_lt {c : UInt8} {d : Nat} (h : Bytes.hexDigit? c = some d) : d < 16 := by
  unfold Bytes.hexDigit? at h
  simp only [UInt8.le_iff_toNat_le] at h
  split at h
  · simp at *
    omega
  split at h
  · simp at *
    omega
  split at h
  · simp at *
    omega
  · cases h

theorem length_hexDigits {digits : Bytes} {ds : List Nat}
    (h : digits.mapM Bytes.hexDigit? = some ds) : ds.length = digits.length := by
  induction digits generalizing ds with
  | nil =>
    cases h
    rfl
  | cons c r ih =>
    rw [List.mapM_cons] at h
    obtain ⟨d, -, h⟩ := Option.bind_eq_some_iff.1 h
    obtain ⟨ds, hds, h⟩ := Option.bind_eq_some_iff.1 h
    cases h
    rw [List.length_cons, List.length_cons, ih hds]

theorem foldl_hexDigits (ds : List Nat) :
    ds.foldl (fun n d => n * 16 + d) 0 = Nat.ofDigits 16 ds.reverse := by
  rw [Nat.ofDigits_eq_foldr, List.foldr_reverse]
  congr 1
  funext n d
  rw [Nat.cast_id]
  omega

/-- A numeral that begins with another digit than zero is no longer than its number is large. -/
theorem length_le_of_hexNumber? {digits : Bytes} {n : Nat} (h : hexNumber? digits = some n)
    (hfront : digits.head? ≠ some 0x30) (hn : n < UInt64.size) : digits.length ≤ maxDigits := by
  obtain ⟨ds, hds, rfl⟩ := Option.map_eq_some_iff.1 h
  cases digits with
  | nil => exact Nat.zero_le _
  | cons c r =>
    rw [List.mapM_cons] at hds
    obtain ⟨d, hd, hds⟩ := Option.bind_eq_some_iff.1 hds
    obtain ⟨ds, hr, hds⟩ := Option.bind_eq_some_iff.1 hds
    cases hds
    have hd0 : d ≠ 0 := by
      rintro rfl
      exact hfront (by rw [eq_of_hexDigit?_zero hd]; rfl)
    have hne : (d :: ds).reverse ≠ [] := by simp
    -- the first digit written is the last one that `Nat.ofDigits` weighs
    have hlast : (d :: ds).reverse.getLast hne ≠ 0 := by simpa using hd0
    have hpow : 16 ^ (ds.length + 1) ≤ 16 * Nat.ofDigits 16 (d :: ds).reverse := by
      simpa using Nat.pow_length_le_mul_ofDigits (b := 14) hne hlast
    have hsize : UInt64.size = 16 ^ 16 := rfl
    have hlt : 16 ^ (ds.length + 1) < 16 ^ 17 := by omega
    have hlen := (Nat.pow_lt_pow_iff_right (by decide)).1 hlt
    rw [List.length_cons, ← length_hexDigits hr, maxDigits]
    omega

/-! ## Size lines -/

/-- Digits are taken in from the most significant one on. -/
theorem sizeFrom_digits {digits : Bytes} {ds : List Nat}
    (h : digits.mapM Bytes.hexDigit? = some ds) {size count : Nat}
    (hcount : count + digits.length ≤ maxDigits) (x : Bytes) :
    sizeFrom .digits size count (digits ++ x)
      = sizeFrom .digits (ds.foldl (fun n d => n * 16 + d) size) (count + digits.length) x := by
  induction digits generalizing ds size count with
  | nil =>
    cases h
    rfl
  | cons c r ih =>
    rw [List.mapM_cons] at h
    obtain ⟨d, hd, h⟩ := Option.bind_eq_some_iff.1 h
    obtain ⟨ds, hds, h⟩ := Option.bind_eq_some_iff.1 h
    cases h
    obtain ⟨hreturn, hsemicolon, hblank⟩ := hexDigit?_ne hd
    rw [List.length_cons] at hcount
    rw [List.cons_append, sizeFrom.eq_def]
    dsimp only
    rw [if_neg hreturn, if_neg hsemicolon, if_neg hblank, hd]
    dsimp only
    rw [if_pos (by omega), ih hds (by omega), List.foldl_cons, List.length_cons,
      Nat.add_right_comm, Nat.add_assoc]

/-- An extension is gone over with the end of its line. -/
theorem sizeFrom_extension {extension : Bytes} (h : 0x0D ∉ extension) (size count : Nat)
    (x : Bytes) :
    sizeFrom .extension size count (extension ++ 0x0D :: 0x0A :: x) = .ok (size, x) := by
  induction extension with
  | nil => rfl
  | cons c r ih =>
    rw [List.mem_cons, not_or] at h
    obtain ⟨hc, hr⟩ := h
    rw [List.cons_append, sizeFrom.eq_def]
    dsimp only
    rw [if_neg (Ne.symm hc), ih hr]

/-- A size line as a sender writes it. -/
structure SizeLine where
  digits : Bytes
  /-- What stands behind a semicolon. -/
  extension : Option Bytes := none
  deriving DecidableEq, Repr

def SizeLine.bytes (l : SizeLine) : Bytes :=
  l.digits
  ++ (match l.extension with
    | none => []
    | some x => 0x3B :: x)
  ++ [0x0D, 0x0A]

/-- A line that tells a size in either case of letters, with no more zeros in front than there is
room for, and whose extension stays within the line. -/
structure SizeLine.Tells (l : SizeLine) (size : Nat) : Prop where
  number : hexNumber? l.digits = some size
  room : l.digits.head? = some 0x30 → l.digits.length ≤ maxDigits
  inline : ∀ x ∈ l.extension, IsInline x

theorem SizeLine.Tells.length_digits {l : SizeLine} {size : Nat} (h : l.Tells size)
    (hsize : size < UInt64.size) : l.digits.length ≤ maxDigits := by
  by_cases hfront : l.digits.head? = some 0x30
  · exact h.room hfront
  · exact length_le_of_hexNumber? h.number hfront hsize

/-- The size that a line tells is read, and all that follows the line is left. -/
theorem sizeLine_append {l : SizeLine} {size : Nat} (h : l.Tells size) (hsize : size < UInt64.size)
    (x : Bytes) : sizeLine (l.bytes ++ x) = .ok (size, x) := by
  obtain ⟨ds, hds, hnumber⟩ := Option.map_eq_some_iff.1 h.number
  have hlen := h.length_digits hsize
  rw [sizeLine, SizeLine.bytes, List.append_assoc, List.append_assoc,
    sizeFrom_digits hds (by omega), foldl_hexDigits, hnumber]
  cases hext : l.extension with
  | none => rfl
  | some extension =>
    exact sizeFrom_extension (h.inline extension hext).1 size (0 + l.digits.length) x

/-! ## Size lines that are read -/

/-- Where a byte takes the reader of a size line, if it does not end the line and may stand in it. -/
def advance (part : Part) (size count : Nat) (c : UInt8) : Option (Part × Nat × Nat) :=
  if part = .extension ∨ c = 0x3B then some (.extension, size, count)
  else if c = 0x20 ∨ c = 0x09 then some (.blanks, size, count)
  else if part = .blanks ∨ maxDigits ≤ count then none
  else (Bytes.hexDigit? c).map fun d => (.digits, size * 16 + d, count + 1)

theorem sizeFrom_cons {part : Part} {size count : Nat} {c : UInt8} (hc : c ≠ 0x0D) (r : Bytes) :
    sizeFrom part size count (c :: r)
      = match advance part size count c with
        | none => .error .invalidSize
        | some (part, size, count) => sizeFrom part size count r := by
  rw [sizeFrom.eq_def]
  simp only [hc, if_false]
  cases part with
  | extension => simp [advance]
  | blanks =>
    by_cases hsemicolon : c = 0x3B
    · simp [advance, hsemicolon]
    by_cases hblank : c = 0x20 ∨ c = 0x09
    · simp [advance, hsemicolon, hblank]
    · simp [advance, hsemicolon, hblank]
  | digits =>
    by_cases hsemicolon : c = 0x3B
    · simp [advance, hsemicolon]
    by_cases hblank : c = 0x20 ∨ c = 0x09
    · simp [advance, hsemicolon, hblank]
    cases hd : Bytes.hexDigit? c with
    | none => simp [advance, hsemicolon, hblank, hd]
    | some d =>
      by_cases hcount : count < maxDigits
      · simp [advance, hsemicolon, hblank, hd, hcount, Nat.not_le.2 hcount]
      · simp [advance, hsemicolon, hblank, hcount, Nat.not_lt.1 hcount]

/-- Whether a size is one of so many digits. -/
structure Within (size count : Nat) : Prop where
  count_le : count ≤ maxDigits
  size_lt : size < 16 ^ count

theorem Within.lt_size {size count : Nat} (h : Within size count) : size < UInt64.size := by
  have hpow : 16 ^ count ≤ 16 ^ maxDigits := Nat.pow_le_pow_right (by decide) h.count_le
  exact Nat.lt_of_lt_of_le h.size_lt hpow

theorem Within.advance {part part' : Part} {size count size' count' : Nat} {c : UInt8}
    (h : Within size count) (hgo : advance part size count c = some (part', size', count')) :
    Within size' count' := by
  unfold Chunked.advance at hgo
  split at hgo
  · cases hgo
    exact h
  split at hgo
  · cases hgo
    exact h
  split at hgo
  · cases hgo
  next hroom =>
    obtain ⟨d, hd, hgo⟩ := Option.map_eq_some_iff.1 hgo
    cases hgo
    have hdigit := hexDigit?_lt hd
    have hsize := h.size_lt
    refine ⟨by omega, ?_⟩
    rw [Nat.pow_succ]
    omega

/-- What is read of a size line is its line, whatever follows it, and fits a word. -/
theorem sizeFrom_eq_ok {part : Part} {size count n : Nat} {b rest : Bytes}
    (h : sizeFrom part size count b = .ok (n, rest)) :
    ∃ line, b = line ++ rest ∧ (∀ x, sizeFrom part size count (line ++ x) = .ok (n, x))
      ∧ (Within size count → n < UInt64.size) := by
  induction b generalizing part size count with
  | nil => cases h
  | cons c r ih =>
    by_cases hc : c = 0x0D
    · subst hc
      cases r with
      | nil => cases h
      | cons d r =>
        by_cases hd : d = 0x0A
        · subst hd
          cases h
          exact ⟨[0x0D, 0x0A], rfl, fun _ => rfl, Within.lt_size⟩
        · simp [sizeFrom, hd] at h
    · rw [sizeFrom_cons hc] at h
      cases hgo : advance part size count c with
      | none =>
        rw [hgo] at h
        cases h
      | some next =>
        rw [hgo] at h
        obtain ⟨line, rfl, hread, hlt⟩ := ih h
        refine ⟨c :: line, rfl, ?_, fun h => hlt (h.advance hgo)⟩
        intro x
        rw [List.cons_append, sizeFrom_cons hc, hgo]
        exact hread x

/-- A size line that is read is the same line in front of anything else. -/
theorem sizeLine_eq_ok {n : Nat} {b rest : Bytes} (h : sizeLine b = .ok (n, rest)) :
    n < UInt64.size ∧ ∃ line, b = line ++ rest ∧ ∀ x, sizeLine (line ++ x) = .ok (n, x) := by
  obtain ⟨line, hb, hread, hlt⟩ := sizeFrom_eq_ok h
  exact ⟨hlt ⟨Nat.zero_le _, by decide⟩, line, hb, hread⟩

/-! ## Chunks -/

/-- A piece of a body as a sender writes it. -/
structure Chunk where
  line : SizeLine
  data : Bytes
  deriving DecidableEq, Repr

def Chunk.bytes (c : Chunk) : Bytes :=
  c.line.bytes ++ (c.data ++ [0x0D, 0x0A])

/-- A chunk that says how much data it has, which is some. -/
structure Chunk.IsSound (c : Chunk) : Prop where
  told : c.line.Tells c.data.length
  nonempty : c.data ≠ []

/-- The data of chunks, put together. -/
def dataOf (chunks : List Chunk) : Bytes :=
  chunks.flatMap Chunk.data

theorem decode_of_error {b : Bytes} {e : ChunkError} (h : sizeLine b = .error e) :
    decode b = .error e := by
  rw [decode.eq_def, h]

theorem decode_of_last {b rest : Bytes} (h : sizeLine b = .ok (0, rest)) : decode b = .ok [] := by
  rw [decode.eq_def, h]
  rfl

/-- A size that is not zero calls for as much data and a line end. -/
theorem decode_of_line {b rest : Bytes} {size : Nat} (h : sizeLine b = .ok (size, rest))
    (hsize : size ≠ 0) :
    decode b
      = if rest.length < size + 2 then .error (.truncated size rest.length)
        else if [0x0D, 0x0A] <+: rest.drop size then
          (decode (rest.drop (size + 2))).map (rest.take size ++ ·)
        else .error .noLineEnd := by
  rw [decode.eq_def]
  split
  next e he => rw [h] at he; cases he
  next size rest hread =>
    rw [h] at hread
    cases hread
    rw [if_neg hsize]
    split
    next c d more hcut =>
      have hlength := congrArg List.length hcut
      rw [List.length_drop, List.length_cons, List.length_cons] at hlength
      have hmore : rest.drop (size + 2) = more := by
        rw [← List.drop_drop, hcut]
        rfl
      rw [if_neg (show ¬rest.length < size + 2 by omega), hcut, hmore]
      by_cases hend : c = 0x0D ∧ d = 0x0A
      · obtain ⟨rfl, rfl⟩ := hend
        rw [if_pos ⟨rfl, rfl⟩, if_pos ⟨more, rfl⟩]
        cases decode more <;> rfl
      · rw [if_neg hend, if_neg]
        rintro ⟨after, hprefix⟩
        cases hprefix
        exact hend ⟨rfl, rfl⟩
    next hcut =>
      have hshort : rest.length < size + 2 := by
        have hlength := List.length_drop (i := size) (l := rest)
        rcases hrest : rest.drop size with _ | ⟨c, _ | ⟨d, more⟩⟩
        · rw [hrest, List.length_nil] at hlength
          omega
        · rw [hrest, List.length_singleton] at hlength
          omega
        · exact absurd hrest (hcut c d more)
      rw [if_pos hshort]

theorem decode_of_chunk {b data more : Bytes}
    (h : sizeLine b = .ok (data.length, data ++ 0x0D :: 0x0A :: more)) (hdata : data ≠ []) :
    decode b = (decode more).map (data ++ ·) := by
  have hdrop : (data ++ 0x0D :: 0x0A :: more).drop data.length = 0x0D :: 0x0A :: more :=
    List.drop_left ..
  rw [decode_of_line h (by simpa using hdata), if_neg (by simp), ← List.drop_drop, hdrop,
    if_pos ⟨more, rfl⟩, List.take_left]
  rfl

/-- **The data of sound chunks up to one of size zero is the body**, whatever follows. -/
theorem decode_chunks {chunks : List Chunk} {last : SizeLine} (hchunks : ∀ c ∈ chunks, c.IsSound)
    (hlast : last.Tells 0) (hsize : (dataOf chunks).length < UInt64.size) (x : Bytes) :
    decode (chunks.flatMap Chunk.bytes ++ (last.bytes ++ x)) = .ok (dataOf chunks) := by
  induction chunks with
  | nil => exact decode_of_last (sizeLine_append hlast (by decide) x)
  | cons c r ih =>
    rw [List.forall_mem_cons] at hchunks
    obtain ⟨hc, hr⟩ := hchunks
    rw [dataOf, List.flatMap_cons, List.length_append] at hsize
    have hdata := ih hr (by rw [dataOf]; omega)
    have hline := sizeLine_append hc.told (by omega)
      (c.data ++ 0x0D :: 0x0A :: (r.flatMap Chunk.bytes ++ (last.bytes ++ x)))
    have hcut : (c :: r).flatMap Chunk.bytes ++ (last.bytes ++ x) = c.line.bytes
        ++ (c.data ++ 0x0D :: 0x0A :: (r.flatMap Chunk.bytes ++ (last.bytes ++ x))) := by
      simp [Chunk.bytes]
    rw [hcut, decode_of_chunk hline hc.nonempty, hdata]
    rfl

/-! ## Bodies that are read -/

/-- A body is read off the last size line, or off a chunk and what follows it. -/
theorem decode_eq_ok {b body : Bytes} (h : decode b = .ok body) :
    (∃ rest, sizeLine b = .ok (0, rest) ∧ body = [])
      ∨ ∃ data more body', sizeLine b = .ok (data.length, data ++ 0x0D :: 0x0A :: more)
          ∧ data ≠ [] ∧ decode more = .ok body' ∧ body = data ++ body' := by
  rw [decode.eq_def] at h
  split at h
  · cases h
  next size rest hread =>
    split at h
    next hzero =>
      cases h
      rw [hzero] at hread
      exact .inl ⟨rest, hread, rfl⟩
    next hsize =>
      split at h
      next c d more hcut =>
        split at h
        next hline =>
          obtain ⟨rfl, rfl⟩ := hline
          split at h
          next body' hmore =>
            cases h
            have hlen : (rest.take size).length = size := by
              have hcut := congrArg List.length hcut
              simp at hcut ⊢
              omega
            refine .inr ⟨rest.take size, more, body', ?_, ?_, hmore, rfl⟩
            · rw [hread, hlen, ← hcut, List.take_append_drop]
            · intro hnil
              rw [hnil] at hlen
              exact hsize hlen.symm
          · cases h
        · cases h
      · cases h

/-- **A body that is read is read in front of anything else.** -/
theorem decode_append {b body : Bytes} (h : decode b = .ok body) (x : Bytes) :
    decode (b ++ x) = .ok body := by
  induction hn : b.length using Nat.strongRecOn generalizing b body with
  | ind n ih =>
    obtain ⟨rest, hread, rfl⟩ | ⟨data, more, body', hread, hdata, hmore, rfl⟩ := decode_eq_ok h
    · obtain ⟨-, line, rfl, hline⟩ := sizeLine_eq_ok hread
      rw [List.append_assoc]
      exact decode_of_last (hline (rest ++ x))
    · have hlt := length_sizeLine hread
      obtain ⟨-, line, rfl, hline⟩ := sizeLine_eq_ok hread
      have hread' : sizeLine (line ++ (data ++ 0x0D :: 0x0A :: more) ++ x)
          = .ok (data.length, data ++ 0x0D :: 0x0A :: (more ++ x)) := by
        simpa using hline (data ++ 0x0D :: 0x0A :: more ++ x)
      have hshort : more.length < n := by
        simp at hlt hn
        omega
      rw [decode_of_chunk hread' hdata, ih _ hshort hmore rfl]
      rfl

end PbxAgent.Http.Chunked
