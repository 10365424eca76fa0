import PbxAgent.Proofs.Http.Chunked

/-!
# Chunks in a buffer

A chunked body is decoded on a buffer of a machine: sizes are words of 64 bits, and a cut behind the end of
the buffer would be a fault. Whatever reads the size lines, as long as it stays within the buffer and does
not look behind the line, no fault occurs, and a body is found exactly in bytes that are groups of a size
line, data and line end, up to a size of zero (`decode_exact`).
-/

namespace PbxAgent.Http.Chunked

open Text.Utf8 (encode)

/-! ## Words and cuts -/

/-- How decoding ends without a body. -/
inductive Halt where
  | refused (e : ChunkError)
  /-- A cut was to be made behind the end of the buffer. -/
  | outOfRange
  deriving DecidableEq, Repr

/-- A buffer cut in two at a position, which must be in it. -/
def cutAt (b : Bytes) (position : Nat) : Except Halt (Bytes × Bytes) :=
  if position ≤ b.length then .ok (b.take position, b.drop position) else .error .outOfRange

theorem cutAt_of_le {b : Bytes} {position : Nat} (h : position ≤ b.length) :
    cutAt b position = .ok (b.take position, b.drop position) :=
  if_pos h

theorem cutAt_length (b x : Bytes) : cutAt (b ++ x) b.length = .ok (b, x) := by
  rw [cutAt_of_le (by simp), List.take_left, List.drop_left]

theorem length_of_cutAt {b before after : Bytes} {position : Nat}
    (h : cutAt b position = .ok (before, after)) : position + after.length = b.length := by
  unfold cutAt at h
  split at h
  next hle =>
    cases h
    rw [List.length_drop]
    omega
  · cases h

/-- The sum of two words, or the greatest word where that is no word. -/
def saturatingAdd (a b : UInt64) : UInt64 :=
  if a.toNat + b.toNat < UInt64.size then a + b else UInt64.ofNatLT (UInt64.size - 1) (by decide)

theorem toNat_saturatingAdd (a b : UInt64) :
    (saturatingAdd a b).toNat = min (a.toNat + b.toNat) (UInt64.size - 1) := by
  unfold saturatingAdd
  split
  next h =>
    rw [UInt64.toNat_add]
    simp only [UInt64.size] at h ⊢
    omega
  next h =>
    rw [UInt64.toNat_ofNatLT]
    omega

/-! ## Decoding on a buffer -/

/-- Reads the size line at the front of a buffer: the position behind the line, and the size. -/
abbrev SizeReader := Bytes → Except ChunkError (Nat × UInt64)

/-- The data of the chunks in a buffer, behind the data of those before them. -/
def decodeFrom (read : SizeReader) (data b : Bytes) : Except Halt Bytes :=
  match read b with
  | .error e => .error (.refused e)
  | .ok (start, size) =>
    match _line : cutAt b start with
    | .error h => .error h
    | .ok (_, rest) =>
      if size = 0 then .ok data
      else if rest.length < (saturatingAdd size 2).toNat then
        .error (.refused (.truncated size.toNat rest.length))
      else
        match _chunk : cutAt rest size.toNat with
        | .error h => .error h
        | .ok (chunk, tail) =>
          if [0x0D, 0x0A].isPrefixOf tail then
            match _end : cutAt tail 2 with
            | .error h => .error h
            | .ok (_, more) => decodeFrom read (data ++ chunk) more
          else .error (.refused .noLineEnd)
termination_by b.length
decreasing_by
  have h₁ := length_of_cutAt _line
  have h₂ := length_of_cutAt _chunk
  have h₃ := length_of_cutAt _end
  omega

/-- The body in a buffer. -/
def decodeWith (read : SizeReader) (b : Bytes) : Except Halt Bytes :=
  decodeFrom read [] b

/-! ## The format -/

/-- A size line and the data behind it. -/
structure Group where
  line : Bytes
  data : Bytes
  deriving DecidableEq, Repr

def Group.bytes (g : Group) : Bytes :=
  g.line ++ (g.data ++ [0x0D, 0x0A])

/-- Whether a group's line is read in full, and tells of just its data, which is some. -/
structure Group.IsRead (read : SizeReader) (g : Group) : Prop where
  told : ∃ size, read g.line = .ok (g.line.length, size) ∧ size.toNat = g.data.length
  nonempty : g.data ≠ []

/-- Whether some bytes are a body in groups, up to a line of size zero with anything behind it. -/
def IsChunked (read : SizeReader) (b body : Bytes) : Prop :=
  ∃ (groups : List Group) (last after : Bytes), (∀ g ∈ groups, g.IsRead read)
    ∧ read last = .ok (last.length, 0) ∧ b = groups.flatMap Group.bytes ++ (last ++ after)
    ∧ body = groups.flatMap Group.data

/-- What decoding relies on: a size line ends within the buffer, and what is read of it does not depend
on the bytes behind it. -/
structure SizeReader.IsSound (read : SizeReader) : Prop where
  within : ∀ {b start size}, read b = .ok (start, size) → start ≤ b.length
  unaffected : ∀ {b start size}, read b = .ok (start, size) →
    ∀ x, read (b.take start ++ x) = .ok (start, size)

variable {read : SizeReader} {b body more : Bytes}

theorem isChunked_last {last : Bytes} (h : read last = .ok (last.length, 0)) (after : Bytes) :
    IsChunked read (last ++ after) [] :=
  ⟨[], last, after, nofun, h, rfl, rfl⟩

theorem IsChunked.cons {g : Group} (hg : g.IsRead read) (h : IsChunked read more body) :
    IsChunked read (g.bytes ++ more) (g.data ++ body) := by
  obtain ⟨groups, last, after, hgroups, hlast, rfl, rfl⟩ := h
  refine ⟨g :: groups, last, after, List.forall_mem_cons.2 ⟨hg, hgroups⟩, hlast, ?_, ?_⟩
  · rw [List.flatMap_cons, List.append_assoc]
  · rw [List.flatMap_cons]

namespace SizeReader.IsSound

variable (sound : read.IsSound)
include sound

/-- A line that is read at the front of a buffer is read as well on its own. -/
theorem exists_line {start : Nat} {size : UInt64} (h : read b = .ok (start, size)) :
    ∃ line rest, b = line ++ rest ∧ line.length = start ∧ read line = .ok (line.length, size) := by
  have hlen : (b.take start).length = start := List.length_take_of_le (sound.within h)
  have hread := sound.unaffected h []
  rw [List.append_nil] at hread
  refine ⟨b.take start, b.drop start, (List.take_append_drop start b).symm, hlen, ?_⟩
  rw [hread, hlen]

/-- A line that is read on its own is read as well at the front of a buffer. -/
theorem read_append {line : Bytes} {size : UInt64} (h : read line = .ok (line.length, size))
    (x : Bytes) : read (line ++ x) = .ok (line.length, size) := by
  have hread := sound.unaffected h x
  rwa [List.take_length] at hread

/-! ## One round -/

/-- A size of zero ends the body. -/
theorem decodeFrom_last {last : Bytes} (h : read last = .ok (last.length, 0)) (data after : Bytes) :
    decodeFrom read data (last ++ after) = .ok data := by
  rw [decodeFrom.eq_def, sound.read_append h]
  dsimp only
  split
  next heq =>
    rw [cutAt_length] at heq
    cases heq
  next => rfl

/-- A size that is not zero is compared with what is there before anything is cut. -/
theorem decodeFrom_line {line : Bytes} {size : UInt64} (h : read line = .ok (line.length, size))
    (hsize : size ≠ 0) (data x : Bytes) :
    decodeFrom read data (line ++ x)
      = if x.length < (saturatingAdd size 2).toNat then
          .error (.refused (.truncated size.toNat x.length))
        else if [0x0D, 0x0A] <+: x.drop size.toNat then
          decodeFrom read (data ++ x.take size.toNat) (x.drop (size.toNat + 2))
        else .error (.refused .noLineEnd) := by
  rw [decodeFrom.eq_def, sound.read_append h]
  dsimp only
  split
  next heq =>
    rw [cutAt_length] at heq
    cases heq
  next heq =>
    rw [cutAt_length] at heq
    cases heq
    rw [if_neg hsize]
    by_cases hshort : x.length < (saturatingAdd size 2).toNat
    · rw [if_pos hshort, if_pos hshort]
    rw [if_neg hshort, if_neg hshort]
    -- the sum may have been cut down to the greatest word, but not below the size
    have hin : size.toNat ≤ x.length := by
      have hword := size.toNat_lt
      rw [toNat_saturatingAdd, UInt64.toNat_ofNat] at hshort
      simp only [UInt64.size] at hshort
      omega
    split
    next heq =>
      rw [cutAt_of_le hin] at heq
      cases heq
    next heq =>
      rw [cutAt_of_le hin] at heq
      cases heq
      by_cases hend : [0x0D, 0x0A] <+: x.drop size.toNat
      · rw [if_pos (List.isPrefixOf_iff_prefix.2 hend), if_pos hend]
        have htwo : 2 ≤ (x.drop size.toNat).length := hend.length_le
        split
        next heq =>
          rw [cutAt_of_le htwo] at heq
          cases heq
        next heq =>
          rw [cutAt_of_le htwo] at heq
          cases heq
          rw [List.drop_drop]
      · rw [if_neg (fun hp => hend (List.isPrefixOf_iff_prefix.1 hp)), if_neg hend]

/-- A group is taken off the front of a buffer. -/
theorem decodeFrom_group {g : Group} (hg : g.IsRead read) (data more : Bytes) :
    decodeFrom read data (g.bytes ++ more) = decodeFrom read (data ++ g.data) more := by
  obtain ⟨size, hread, htold⟩ := hg.told
  have hsize : size ≠ 0 := by
    rintro rfl
    exact hg.nonempty (List.length_eq_zero_iff.1 htold.symm)
  have hbytes : g.bytes ++ more = g.line ++ (g.data ++ 0x0D :: 0x0A :: more) := by
    simp [Group.bytes]
  have hdrop : (g.data ++ 0x0D :: 0x0A :: more).drop size.toNat = 0x0D :: 0x0A :: more := by
    rw [htold, List.drop_left]
  have htake : (g.data ++ 0x0D :: 0x0A :: more).take size.toNat = g.data := by
    rw [htold, List.take_left]
  have hlong : ¬ (g.data ++ 0x0D :: 0x0A :: more).length < (saturatingAdd size 2).toNat := by
    rw [toNat_saturatingAdd, htold, UInt64.toNat_ofNat]
    simp
  rw [hbytes, sound.decodeFrom_line hread hsize, if_neg hlong, hdrop, htake,
    if_pos ⟨more, rfl⟩, ← List.drop_drop, hdrop]
  rfl

/-! ## Whole bodies -/

/-- What is in the format is decoded. -/
theorem decodeFrom_of_isChunked (h : IsChunked read b body) (data : Bytes) :
    decodeFrom read data b = .ok (data ++ body) := by
  obtain ⟨groups, last, after, hgroups, hlast, rfl, rfl⟩ := h
  induction groups generalizing data with
  | nil =>
    rw [List.flatMap_nil, List.nil_append, List.flatMap_nil, List.append_nil]
    exact sound.decodeFrom_last hlast data after
  | cons g groups ih =>
    obtain ⟨hg, hgroups⟩ := List.forall_mem_cons.1 hgroups
    rw [List.flatMap_cons, List.append_assoc, sound.decodeFrom_group hg, ih _ hgroups,
      List.flatMap_cons, List.append_assoc]

/-- At the front of a buffer is the last line, or a group, or what is refused. -/
theorem decodeFrom_cases (b data : Bytes) :
    (∃ last after, b = last ++ after ∧ read last = .ok (last.length, 0))
      ∨ (∃ g more, b = Group.bytes g ++ more ∧ g.IsRead read)
      ∨ ∃ e, decodeFrom read data b = .error (.refused e) := by
  cases hread : read b with
  | error e =>
    refine .inr (.inr ⟨e, ?_⟩)
    rw [decodeFrom.eq_def, hread]
  | ok found =>
    obtain ⟨start, size⟩ := found
    obtain ⟨line, x, rfl, rfl, hline⟩ := sound.exists_line hread
    by_cases hsize : size = 0
    · subst hsize
      exact .inl ⟨line, x, rfl, hline⟩
    right
    rw [sound.decodeFrom_line hline hsize]
    by_cases hshort : x.length < (saturatingAdd size 2).toNat
    · rw [if_pos hshort]
      exact .inr ⟨_, rfl⟩
    rw [if_neg hshort]
    by_cases hend : [0x0D, 0x0A] <+: x.drop size.toNat
    · left
      obtain ⟨more, hmore⟩ := hend
      have hlength : (x.take size.toNat).length = size.toNat := by
        have hdrop := congrArg List.length hmore
        rw [List.length_append, List.length_drop] at hdrop
        simp at hdrop ⊢
        omega
      refine ⟨⟨line, x.take size.toNat⟩, more, ?_, ⟨size, hline, hlength.symm⟩, ?_⟩
      · rw [Group.bytes, List.append_assoc, List.append_assoc, hmore, List.take_append_drop]
      · intro hnil
        have hnil : x.take size.toNat = [] := hnil
        rw [hnil] at hlength
        exact hsize (UInt64.toNat_inj.1 hlength.symm)
    · rw [if_neg hend]
      exact .inr ⟨_, rfl⟩

/-- What is not in the format is refused. -/
theorem isChunked_or_refused (b data : Bytes) :
    (∃ body, IsChunked read b body) ∨ ∃ e, decodeFrom read data b = .error (.refused e) := by
  induction hn : b.length using Nat.strongRecOn generalizing b data with
  | ind n ih =>
    obtain ⟨last, after, rfl, hlast⟩ | ⟨g, more, rfl, hg⟩ | hrefused := sound.decodeFrom_cases b data
    · exact .inl ⟨[], isChunked_last hlast after⟩
    · have hless : more.length < n := by
        simp [Group.bytes] at hn
        omega
      rw [sound.decodeFrom_group hg]
      rcases ih _ hless more (data ++ g.data) rfl with ⟨body, hbody⟩ | hrefused
      · exact .inl ⟨_, hbody.cons hg⟩
      · exact .inr hrefused
    · exact .inr hrefused

end SizeReader.IsSound

/-! ## The size lines that are read -/

/-- The position behind the size line at the front of a buffer, and the size. -/
def sizeAhead : SizeReader := fun b =>
  (sizeLine b).map fun (size, rest) => (b.length - rest.length, UInt64.ofNat size)

theorem sizeAhead_eq_ok {start : Nat} {size : UInt64} :
    sizeAhead b = .ok (start, size) ↔
      ∃ line rest, b = line ++ rest ∧ line.length = start
        ∧ ∀ x, sizeLine (line ++ x) = .ok (size.toNat, x) := by
  constructor
  · intro h
    unfold sizeAhead at h
    cases hread : sizeLine b with
    | error e =>
      rw [hread] at h
      cases h
    | ok found =>
      obtain ⟨n, rest⟩ := found
      rw [hread] at h
      cases h
      obtain ⟨hn, line, rfl, hline⟩ := sizeLine_eq_ok hread
      refine ⟨line, rest, rfl, by simp, ?_⟩
      intro x
      rw [hline, UInt64.toNat_ofNat_of_lt' hn]
  · rintro ⟨line, rest, rfl, rfl, hline⟩
    unfold sizeAhead
    rw [hline]
    simp [Except.map]

theorem sizeAhead_isSound : sizeAhead.IsSound where
  within h := by
    obtain ⟨line, rest, rfl, rfl, -⟩ := sizeAhead_eq_ok.1 h
    simp
  unaffected h x := by
    obtain ⟨line, rest, rfl, rfl, hline⟩ := sizeAhead_eq_ok.1 h
    rw [List.take_left]
    exact sizeAhead_eq_ok.2 ⟨line, x, rfl, rfl, hline⟩

/-- A line that is read in full, and what it tells. -/
theorem sizeAhead_line {line : Bytes} {size : UInt64} :
    sizeAhead line = .ok (line.length, size) ↔ ∀ x, sizeLine (line ++ x) = .ok (size.toNat, x) := by
  rw [sizeAhead_eq_ok]
  constructor
  · rintro ⟨front, rest, rfl, hlength, hline⟩
    obtain rfl : rest = [] := by simpa using hlength
    simpa using hline
  · intro hline
    exact ⟨line, [], by simp, rfl, hline⟩

/-- The body that is read off some bytes is the one that they are in the format for. -/
theorem decode_eq_ok_iff : decode b = .ok body ↔ IsChunked sizeAhead b body := by
  constructor
  · intro h
    induction hn : b.length using Nat.strongRecOn generalizing b body with
    | ind n ih =>
      obtain ⟨rest, hread, rfl⟩ | ⟨data, more, body', hread, hdata, hmore, rfl⟩ := decode_eq_ok h
      · obtain ⟨-, line, rfl, hline⟩ := sizeLine_eq_ok hread
        exact isChunked_last (sizeAhead_line.2 hline) rest
      · obtain ⟨hsize, line, rfl, hline⟩ := sizeLine_eq_ok hread
        have hless : more.length < n := by
          simp at hn
          omega
        have hg : Group.IsRead sizeAhead ⟨line, data⟩ := by
          refine ⟨⟨UInt64.ofNat data.length, sizeAhead_line.2 ?_, ?_⟩, hdata⟩
          · rw [UInt64.toNat_ofNat_of_lt' hsize]
            exact hline
          · exact UInt64.toNat_ofNat_of_lt' hsize
        have hbytes : line ++ (data ++ 0x0D :: 0x0A :: more) = Group.bytes ⟨line, data⟩ ++ more := by
          simp [Group.bytes]
        rw [hbytes]
        exact (ih _ hless hmore rfl).cons hg
  · rintro ⟨groups, last, after, hgroups, hlast, rfl, rfl⟩
    induction groups with
    | nil => exact decode_of_last (sizeAhead_line.1 hlast after)
    | cons g groups ih =>
      obtain ⟨hg, hgroups⟩ := List.forall_mem_cons.1 hgroups
      obtain ⟨size, hread, htold⟩ := hg.told
      have hline := sizeAhead_line.1 hread
        (g.data ++ 0x0D :: 0x0A :: (groups.flatMap Group.bytes ++ (last ++ after)))
      have hbytes : (g :: groups).flatMap Group.bytes ++ (last ++ after)
          = g.line ++ (g.data ++ 0x0D :: 0x0A :: (groups.flatMap Group.bytes ++ (last ++ after))) := by
        simp [Group.bytes]
      rw [htold] at hline
      rw [hbytes, decode_of_chunk hline hg.nonempty, ih hgroups]
      rfl

/-- On a buffer that is not the longest there could be, decoding with these lines is decoding. -/
theorem decodeFrom_sizeAhead (data b : Bytes) (h : b.length < UInt64.size - 1) :
    decodeFrom sizeAhead data b = ((decode b).map (data ++ ·)).mapError .refused := by
  induction hn : b.length using Nat.strongRecOn generalizing b data with
  | ind n ih =>
    cases hread : sizeLine b with
    | error e =>
      have hahead : sizeAhead b = .error e := by
        rw [sizeAhead, hread]
        rfl
      have hdecode : decode b = .error e := by
        rw [decode.eq_def, hread]
      rw [decodeFrom.eq_def, hahead, hdecode]
      rfl
    | ok found =>
      obtain ⟨size, x⟩ := found
      have hless := length_sizeLine hread
      obtain ⟨hsize, line, rfl, hline⟩ := sizeLine_eq_ok hread
      have hword : (UInt64.ofNat size).toNat = size := UInt64.toNat_ofNat_of_lt' hsize
      have hahead : sizeAhead line = .ok (line.length, UInt64.ofNat size) := by
        rw [sizeAhead_line, hword]
        exact hline
      by_cases hzero : size = 0
      · subst hzero
        rw [sizeAhead_isSound.decodeFrom_last hahead, decode_of_last hread]
        simp [Except.map, Except.mapError]
      · have hword_ne : UInt64.ofNat size ≠ 0 := by
          intro heq
          exact hzero (hword.symm.trans (congrArg UInt64.toNat heq))
        -- the greatest word is longer than what is there, so that the sum may as well not be cut down
        have hshort : x.length < (saturatingAdd (UInt64.ofNat size) 2).toNat ↔ x.length < size + 2 := by
          rw [toNat_saturatingAdd, hword, UInt64.toNat_ofNat]
          simp only [UInt64.size] at h ⊢
          omega
        rw [sizeAhead_isSound.decodeFrom_line hahead hword_ne, decode_of_line hread hzero, hword]
        by_cases hlack : x.length < size + 2
        · rw [if_pos hlack, if_pos (hshort.2 hlack)]
          rfl
        rw [if_neg hlack, if_neg (mt hshort.1 hlack)]
        by_cases hend : [0x0D, 0x0A] <+: x.drop size
        · have hmore : (x.drop (size + 2)).length < n := by
            rw [List.length_drop]
            omega
          rw [if_pos hend, if_pos hend, ih _ hmore _ _ (by omega) rfl]
          cases decode (x.drop (size + 2)) with
          | error e => rfl
          | ok body => simp [Except.map, Except.mapError]
        · rw [if_neg hend, if_neg hend]
          rfl

/-- **A body is decoded off the bytes in the format, and off no others.** Whatever reads the size lines, as
long as it stays within the buffer and is unaffected by what is behind a line: decoding gives a body
exactly where the bytes are groups of a size line, as much data as it tells and a line end, up to a line
of size zero and anything behind it, and it is the data of the groups. Any other bytes are refused, so that
nothing is ever cut out of range, however great the sizes. So it is with the size lines that are read, and
on any buffer that a machine has, decoding with these is decoding. -/
theorem decode_exact {read : SizeReader} (sound : read.IsSound) (b : Bytes) :
    (∀ body, decodeWith read b = .ok body ↔ IsChunked read b body)
      ∧ ((¬ ∃ body, IsChunked read b body) → ∃ e, decodeWith read b = .error (.refused e))
      ∧ (∀ body, decode b = .ok body ↔ IsChunked sizeAhead b body)
      ∧ (b.length < 2 ^ 63 → decodeWith sizeAhead b = (decode b).mapError .refused) := by
  have hfound := sound.isChunked_or_refused b []
  refine ⟨?_, ?_, fun body => decode_eq_ok_iff, ?_⟩
  · intro body
    constructor
    · intro h
      rcases hfound with ⟨found, hchunked⟩ | ⟨e, hrefused⟩
      · have hdecode : decodeWith read b = .ok found := sound.decodeFrom_of_isChunked hchunked []
        rw [h] at hdecode
        cases hdecode
        exact hchunked
      · have hdecode : decodeWith read b = .error (.refused e) := hrefused
        rw [h] at hdecode
        cases hdecode
    · intro h
      exact sound.decodeFrom_of_isChunked h []
  · intro hnone
    exact hfound.resolve_left hnone
  · intro hlength
    have hsize : b.length < UInt64.size - 1 := by
      simp only [UInt64.size]
      omega
    rw [decodeWith, decodeFrom_sizeAhead [] b hsize]
    cases decode b <;> rfl

/-- Two groups are decoded, one with more on its line than the size and both with a field behind them; the
greatest size there is is refused. -/
theorem decode_exact_greatest :
    sizeAhead.IsSound
      ∧ decodeWith sizeAhead (encode "5\r\nhello\r\n7;ext=1\r\n, world\r\n0\r\nX-Trailer: y\r\n\r\n")
        = .ok (encode "hello, world")
      ∧ ∃ e, decodeWith sizeAhead (encode "ffffffffffffffff\r\nhello\r\n0\r\n")
        = .error (.refused e) := by
  have hdecode : decode (encode "5\r\nhello\r\n7;ext=1\r\n, world\r\n0\r\nX-Trailer: y\r\n\r\n")
      = .ok (encode "hello, world") := by cbv
  have hgreatest : decode (encode "ffffffffffffffff\r\nhello\r\n0\r\n")
      = .error (.truncated 18446744073709551615 10) := by cbv
  obtain ⟨accepts, -, decodes, -⟩ := decode_exact sizeAhead_isSound
    (encode "5\r\nhello\r\n7;ext=1\r\n, world\r\n0\r\nX-Trailer: y\r\n\r\n")
  obtain ⟨-, refuses, decodesGreatest, -⟩ := decode_exact sizeAhead_isSound
    (encode "ffffffffffffffff\r\nhello\r\n0\r\n")
  refine ⟨sizeAhead_isSound, (accepts _).2 ((decodes _).1 hdecode), refuses ?_⟩
  rintro ⟨body, hbody⟩
  have hok := (decodesGreatest body).2 hbody
  rw [hgreatest] at hok
  cases hok

end PbxAgent.Http.Chunked
