import Mathlib.Algebra.Order.Floor.Div
import PbxAgent.Proofs.Fallible
import PbxAgent.Proofs.Tunnel.Delivery

/-!
# Pieces as slices of a buffer

On a machine a response is a buffer, and its pieces are slices of it: their bounds are words of 64 bits,
stepped from the front of the buffer to its end. A sum that is no word, a slice that is not within the
buffer and a step of nothing would each be a fault. There is none, whatever the size of the pieces, and the
slices are the pieces (`pieces_partition`).
-/

namespace PbxAgent.Tunnel

/-! ## How many pieces, and how long -/

theorem chunks_eq_nil_iff {size : Nat} {b : Bytes} : chunks size b = [] ↔ b = [] := by
  cases b with
  | nil => simp
  | cons c r => simp [chunks]

/-- There are as many pieces as it takes, the last of which may be short. -/
theorem length_chunks (size : Nat) (b : Bytes) :
    (chunks size b).length = b.length ⌈/⌉ max size 1 := by
  have hm : 0 < max size 1 := by omega
  rw [Nat.ceilDiv_eq_add_pred_div]
  fun_induction chunks size b with
  | case1 =>
    have hnone : (([] : Bytes).length + max size 1 - 1) / max size 1 = 0 :=
      Nat.div_eq_of_lt (by rw [List.length_nil]; omega)
    rw [hnone, List.length_nil]
  | case2 c r ih =>
    rw [List.length_cons, ih, List.length_drop, List.length_cons]
    have hsum : r.length + 1 + max size 1 - 1 = r.length + max size 1 := by omega
    rw [hsum, Nat.add_div_right _ hm]
    by_cases hshort : r.length < max size 1
    · have hless : r.length + 1 - max size 1 + max size 1 - 1 < max size 1 := by omega
      rw [Nat.div_eq_of_lt hshort, Nat.div_eq_of_lt hless]
    · have hrest : r.length + 1 - max size 1 + max size 1 - 1 = r.length := by omega
      rw [hrest]

/-- Every piece but the last is full. -/
theorem length_of_mem_dropLast_chunks {size : Nat} {b c : Bytes}
    (h : c ∈ (chunks size b).dropLast) : c.length = max size 1 := by
  fun_induction chunks size b with
  | case1 => cases h
  | case2 d r ih =>
    by_cases hlast : chunks size ((d :: r).drop (max size 1)) = []
    · rw [hlast] at h
      cases h
    · rw [List.dropLast_cons_of_ne_nil hlast, List.mem_cons] at h
      rcases h with rfl | h
      · have hmore : (d :: r).drop (max size 1) ≠ [] := mt chunks_eq_nil_iff.2 hlast
        have hlen : 0 < ((d :: r).drop (max size 1)).length := List.length_pos_iff.2 hmore
        rw [List.length_drop] at hlen
        exact List.length_take_of_le (by omega)
      · exact ih h

/-! ## Cutting a buffer -/

/-- How cutting a buffer goes wrong. -/
inductive CutFault where
  /-- A sum of two words is no word. -/
  | overflow
  /-- A slice is not within the buffer. -/
  | outOfRange
  /-- A step is of nothing. -/
  | noStep
  deriving DecidableEq, Repr

/-- The sum of two words, which must be one. -/
def addWords (a b : UInt64) : Except CutFault UInt64 :=
  if a.toNat + b.toNat < UInt64.size then .ok (a + b) else .error .overflow

theorem addWords_eq_ok {a b c : UInt64} : addWords a b = .ok c ↔ c.toNat = a.toNat + b.toNat := by
  unfold addWords
  split
  next h =>
    rw [Except.ok.injEq, ← UInt64.toNat_inj, UInt64.toNat_add]
    simp only [UInt64.size] at h
    omega
  next h =>
    have hword := c.toNat_lt
    simp only [UInt64.size] at h
    simp only [reduceCtorEq, false_iff]
    omega

/-- The bytes of a buffer from one position up to another. -/
def slice (b : Bytes) (start stop : UInt64) : Except CutFault Bytes :=
  if start ≤ stop ∧ stop.toNat ≤ b.length then
    .ok ((b.drop start.toNat).take (stop.toNat - start.toNat))
  else .error .outOfRange

/-- The length of a buffer as a word. -/
def wordLength (b : Bytes) : UInt64 :=
  UInt64.ofNat b.length

/-- The slices of a buffer from a position on, one at every step up to the buffer's end. -/
def slicesFrom (b : Bytes) (step : UInt64) (hstep : step ≠ 0) (start : UInt64) :
    Except CutFault (List Bytes) :=
  if start.toNat < b.length then
    match _next : addWords start step with
    | .error e => .error e
    | .ok next => do
      let stop ← addWords start step
      let piece ← slice b start (min (wordLength b) stop)
      let pieces ← slicesFrom b step hstep next
      return piece :: pieces
  else .ok []
termination_by b.length - start.toNat
decreasing_by
  have hnext := addWords_eq_ok.1 _next
  have hpos : step.toNat ≠ 0 := fun h => hstep (UInt64.toNat_inj.1 h)
  omega

/-- The slices of a buffer that are its pieces; a size of zero counts as one. -/
def slices (size : UInt64) (b : Bytes) : Except CutFault (List Bytes) :=
  let step := max size 1
  if h : step = 0 then .error .noStep else slicesFrom b step h 0

theorem slice_of_le {b : Bytes} {start stop : UInt64} (h : start.toNat ≤ stop.toNat)
    (hstop : stop.toNat ≤ b.length) :
    slice b start stop = .ok ((b.drop start.toNat).take (stop.toNat - start.toNat)) :=
  if_pos ⟨UInt64.le_iff_toNat_le.2 h, hstop⟩

theorem chunks_of_ne_nil {size : Nat} {b : Bytes} (h : b ≠ []) :
    chunks size b = b.take (max size 1) :: chunks size (b.drop (max size 1)) := by
  cases b with
  | nil => exact absurd rfl h
  | cons c r => rw [chunks]

section
variable {b : Bytes} {step start : UInt64} (hstep : step ≠ 0)

/-- One round on a buffer: the next piece is cut, and the position behind it is a word again. The position
is either the front of the buffer, or no less than the step, so that the sum is less than two lengths. -/
theorem exists_next (hb : b.length < 2 ^ 63) (hstart : start = 0 ∨ step.toNat ≤ start.toNat)
    (hmore : start.toNat < b.length) :
    ∃ next, addWords start step = .ok next ∧ next.toNat = start.toNat + step.toNat
      ∧ slice b start (min (wordLength b) next) = .ok ((b.drop start.toNat).take step.toNat) := by
  have hword := step.toNat_lt
  have hfits : start.toNat + step.toNat < UInt64.size := by
    simp only [UInt64.size]
    rcases hstart with rfl | hle
    · simpa using hword
    · omega
  have hnext : (start + step).toNat = start.toNat + step.toNat := by
    rw [UInt64.toNat_add]
    exact Nat.mod_eq_of_lt hfits
  have hlength : (wordLength b).toNat = b.length := by
    refine UInt64.toNat_ofNat_of_lt' ?_
    simp only [UInt64.size]
    omega
  have hmin : (min (wordLength b) (start + step)).toNat = min b.length (start.toNat + step.toNat) := by
    rw [UInt64.toNat_min, hlength, hnext]
  refine ⟨start + step, if_pos hfits, hnext, ?_⟩
  have htake : (b.drop start.toNat).take (min b.length (start.toNat + step.toNat) - start.toNat)
      = (b.drop start.toNat).take step.toNat := by
    rw [List.take_eq_take_iff, List.length_drop]
    omega
  rw [slice_of_le (by omega) (by omega), hmin, htake]

/-- From any position that is reached, the slices are the pieces of what is left. -/
theorem slicesFrom_eq (hb : b.length < 2 ^ 63) {size : Nat} (hsize : step.toNat = max size 1)
    (hstart : start = 0 ∨ step.toNat ≤ start.toNat) :
    slicesFrom b step hstep start = .ok (chunks size (b.drop start.toNat)) := by
  induction hn : b.length - start.toNat using Nat.strongRecOn generalizing start with
  | ind n ih =>
    rw [slicesFrom.eq_def]
    by_cases hmore : start.toNat < b.length
    · obtain ⟨next, hadd, hnext, hslice⟩ := exists_next hb hstart hmore
      have hrest : slicesFrom b step hstep next = .ok (chunks size (b.drop next.toNat)) :=
        ih _ (by omega) (.inr (by omega)) rfl
      have hleft : b.drop start.toNat ≠ [] := by
        rw [ne_eq, List.drop_eq_nil_iff]
        omega
      rw [if_pos hmore]
      split
      next heq =>
        rw [hadd] at heq
        cases heq
      next heq =>
        rw [hadd] at heq
        cases heq
        rw [hadd, ok_bind, hslice, ok_bind, hrest, ok_bind, chunks_of_ne_nil hleft, List.drop_drop,
          ← hsize, hnext]
        rfl
    · rw [if_neg hmore, List.drop_eq_nil_of_le (by omega), chunks_nil]

end

/-- Cutting a buffer goes through, and gives the pieces. -/
theorem slices_eq {b : Bytes} (hb : b.length < 2 ^ 63) (size : UInt64) :
    slices size b = .ok (chunks size.toNat b) := by
  have hstep : (max size 1).toNat = max size.toNat 1 := UInt64.toNat_max size 1
  have hne : max size 1 ≠ 0 := by
    intro hzero
    rw [hzero, UInt64.toNat_zero] at hstep
    omega
  rw [slices, dif_neg hne, slicesFrom_eq hne hb hstep (.inl rfl)]
  rfl

/-- **The pieces are the response, cut at every so many bytes.** Whatever the size of the pieces, zero
counting as one, and whatever the buffer, as long as its length fits 63 bits: there are as many pieces as it
takes, all but the last are full, the last is not empty, and put together they are the buffer. On the
machine they are slices, and on the way no sum is greater than a word and no bound is outside the buffer. -/
theorem pieces_partition {b : Bytes} (hb : b.length < 2 ^ 63) (size : UInt64) :
    let full := max size.toNat 1
    let pieces := chunks size.toNat b
    slices size b = .ok pieces
      ∧ pieces.flatten = b
      ∧ pieces.length = b.length ⌈/⌉ full
      ∧ (∀ c ∈ pieces.dropLast, c.length = full)
      ∧ ∀ c ∈ pieces.getLast?, 1 ≤ c.length ∧ c.length ≤ full := by
  intro full pieces
  refine ⟨slices_eq hb size, flatten_chunks _ b, length_chunks _ b, ?_, ?_⟩
  · intro c hc
    exact length_of_mem_dropLast_chunks hc
  · intro c hc
    exact isPiece_of_mem_chunks (List.mem_of_getLast? hc)

/-- Five bytes in pieces of two, and in pieces of the greatest size that there is. -/
theorem pieces_partition_greatest :
    ([1, 2, 3, 4, 5] : Bytes).length < 2 ^ 63
      ∧ slices 2 [1, 2, 3, 4, 5] = .ok [[1, 2], [3, 4], [5]]
      ∧ slices 0xFFFFFFFFFFFFFFFF [1, 2, 3, 4, 5] = .ok [[1, 2, 3, 4, 5]] := by
  have hb : ([1, 2, 3, 4, 5] : Bytes).length < 2 ^ 63 := by decide
  obtain ⟨halves, -⟩ := pieces_partition hb 2
  obtain ⟨whole, -⟩ := pieces_partition hb 0xFFFFFFFFFFFFFFFF
  refine ⟨hb, halves.trans ?_, whole.trans ?_⟩
  · simp [chunks]
  · simp [chunks]

end PbxAgent.Tunnel
