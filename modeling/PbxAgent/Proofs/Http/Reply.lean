import PbxAgent.Http.Response
import PbxAgent.Proofs.Http.Inline
import PbxAgent.Proofs.Text.Cutting

/-!
# Responses read back

A response can be read back from its bytes (`bytes_read_back`): no line of the head is empty or has a
line's end in it (`isInline_of_mem_headLines`), so that the first empty line is the end of the head.
-/

namespace PbxAgent.Http

open Bytes (cut splitBy)
open Text.Utf8 (encode encode_append)

/-! ## Fields of a handler -/

/-- Whether fields are what handlers may give: their names are tokens, and no value leaves its line. -/
def Fields.IsSound (fs : Fields) : Prop :=
  ∀ f ∈ fs.lines, f.1.all Head.isToken = true ∧ IsInline f.2

instance (fs : Fields) : Decidable fs.IsSound :=
  inferInstanceAs (Decidable (∀ f ∈ fs.lines, _))

namespace Response

/-! ## Lines of a head -/

theorem isInline_reasonPhrase (status : Nat) :
    IsInline (encode ((reasonPhrase? status).getD "")) := by
  unfold reasonPhrase?
  split <;> decide

theorem isInline_guessedType (body : Bytes) : IsInline (encode (guessedType body)) := by
  unfold guessedType
  dsimp only
  split
  · decide
  · split <;> decide

theorem isInline_contentType (r : Response) : IsInline r.contentType := by
  unfold contentType
  split
  · split
    next h => exact isInline_of_all rfl rfl h
    · exact isInline_guessedType r.body
  · exact isInline_guessedType r.body

theorem fieldLine_eq (name value : Bytes) :
    fieldLine name value = name ++ encode ": " ++ value := by
  rw [List.append_assoc]
  rfl

/-- A line with a name and a value is not empty, and stays a line if they do. -/
theorem isInline_fieldLine {name value : Bytes} (hname : IsInline name) (hvalue : IsInline value) :
    fieldLine name value ≠ [] ∧ IsInline (fieldLine name value) := by
  refine ⟨by simp [fieldLine], ?_⟩
  rw [fieldLine_eq]
  exact (hname.append (by decide)).append hvalue

variable {r : Response}

/-- No line of the head is empty or has a line's end in it. -/
theorem isInline_of_mem_headLines (sound : r.fields.IsSound) :
    ∀ l ∈ r.headLines, l ≠ [] ∧ IsInline l := by
  intro l hl
  rw [headLines, List.mem_append] at hl
  rcases hl with hl | hl
  · simp only [List.mem_cons, List.not_mem_nil, or_false] at hl
    rcases hl with rfl | rfl | rfl
    · refine ⟨?_, IsInline.append (by decide) (isInline_reasonPhrase r.status)⟩
      exact List.append_ne_nil_of_left_ne_nil (by decide) _
    · exact isInline_fieldLine (by decide) (isInline_decimalBytes _)
    · exact isInline_fieldLine (by decide) r.isInline_contentType
  · obtain ⟨f, hf, rfl⟩ := List.mem_map.1 hl
    obtain ⟨hname, hvalue⟩ := sound f (List.mem_filter.1 hf).1
    exact isInline_fieldLine (isInline_of_all rfl rfl hname) hvalue

/-! ## Reading -/

theorem isOwnField_eq (name : Bytes) :
    (!isOwnField name) = decide
      (name ∉ [encode "content-length", encode "content-type", encode "transfer-encoding"]) := by
  have hnames : [encode "content-length", encode "content-type", encode "transfer-encoding"]
      = [contentLengthName, contentTypeName, transferEncodingName] := by decide
  rw [hnames, isOwnField]
  simp [Bool.and_assoc]

theorem contentType_eq (r : Response) :
    r.contentType = ((r.fields.values (encode "content-type")).head?.filter
      (·.all fun c => c = 0x09 || (0x20 ≤ c && c < 0x7F))).getD (encode (guessedType r.body)) := by
  have hname : encode "content-type" = contentTypeName := by decide
  have htext : (fun c : UInt8 => decide (c = 0x09) || (decide (0x20 ≤ c) && decide (c < 0x7F)))
      = isTextByte := rfl
  rw [contentType, hname, htext]
  cases (r.fields.values contentTypeName).head? with
  | none => rfl
  | some v =>
    rw [Option.filter_some]
    by_cases h : v.all isTextByte = true
    · rw [if_pos h]
      simp [h]
    · simp [h]

/-- What the lines of the head are, in text. -/
theorem headLines_eq (r : Response) :
    r.headLines = encode ("HTTP/1.1 " ++ (reasonPhrase? r.status).getD "")
      :: encode ("Content-Length: " ++ toString r.body.length)
      :: (encode "Content-Type: " ++ r.contentType)
      :: (r.fields.lines.filter fun f => !isOwnField f.1).map fun f => f.1 ++ encode ": " ++ f.2 := by
  have hlength : fieldLine (encode "Content-Length") (decimalBytes r.body.length)
      = encode ("Content-Length: " ++ toString r.body.length) := by
    rw [encode_append, ← encode_repr]
    rfl
  rw [headLines, hlength, statusLine, ← encode_append]
  simp only [fieldLine_eq]
  rfl

/-- Name and value of a field can be told from its line. -/
theorem cut_fieldLine {name : Bytes} (hname : name.all Head.isToken = true) (value : Bytes) :
    cut (encode ": ") (fieldLine name value) = some (name, value) := by
  have hcolon : 0x3A ∉ name := by
    intro hmem
    exact absurd (List.all_eq_true.1 hname _ hmem) (by decide)
  rw [fieldLine_eq, List.append_assoc]
  exact Bytes.cut_append hcolon value

/-- **A response can be read back from its bytes.** Whatever its body, and whatever fields it has as
long as names are tokens and values stay within a line: the first empty line ends the head, and all
that follows is the body. The lines of the head are the protocol with the phrase of the status, the
length of the body, its type, and one for every other value in their order, from which name and value
can be told; and a line's end stands nowhere but between them. The type is the first that the response
gives, if that is text, and a guess otherwise. -/
theorem bytes_read_back (r : Response) (sound : r.fields.IsSound) :
    let type := ((r.fields.values (encode "content-type")).head?.filter
      (·.all fun c => c = 0x09 || (0x20 ≤ c && c < 0x7F))).getD (encode (guessedType r.body))
    let passedOn := r.fields.lines.filter fun f =>
      f.1 ∉ [encode "content-length", encode "content-type", encode "transfer-encoding"]
    let fieldLines := passedOn.map fun f => f.1 ++ encode ": " ++ f.2
    ∃ head, cut (encode "\r\n\r\n") r.bytes = some (head, r.body)
      ∧ splitBy (encode "\r\n") head
          = encode ("HTTP/1.1 " ++ (reasonPhrase? r.status).getD "")
            :: encode ("Content-Length: " ++ toString r.body.length)
            :: (encode "Content-Type: " ++ type) :: fieldLines
      ∧ fieldLines.map (cut (encode ": ")) = passedOn.map some
      ∧ ∀ l ∈ splitBy (encode "\r\n") head, IsInline l := by
  intro type passedOn fieldLines
  have inline := isInline_of_mem_headLines sound
  have hne : r.headLines ≠ [] := List.cons_ne_nil _ _
  have hcut : cut (encode "\r\n\r\n") r.bytes = some (lineEnd.intercalate r.headLines, r.body) := by
    rw [bytes, List.append_assoc]
    refine Bytes.cut_lines (by decide) ?_ hne r.body
    intro l hl
    exact ⟨(inline l hl).1, (inline l hl).2.1⟩
  have hsplit : splitBy (encode "\r\n") (lineEnd.intercalate r.headLines) = r.headLines :=
    Bytes.splitBy_intercalate (fun l hl => (inline l hl).2.1) hne
  have hlines : r.headLines = encode ("HTTP/1.1 " ++ (reasonPhrase? r.status).getD "")
      :: encode ("Content-Length: " ++ toString r.body.length)
      :: (encode "Content-Type: " ++ type) :: fieldLines := by
    rw [headLines_eq, contentType_eq]
    simp only [isOwnField_eq, fieldLines, passedOn]
    rfl
  refine ⟨lineEnd.intercalate r.headLines, hcut, hsplit.trans hlines, ?_, ?_⟩
  · rw [List.map_map]
    refine List.map_congr_left ?_
    intro f hf
    rw [Function.comp_apply, ← fieldLine_eq]
    exact cut_fieldLine (sound f (List.mem_filter.1 hf).1).1 f.2
  · rw [hsplit]
    exact fun l hl => (inline l hl).2

/-- A response whose body looks like the end of a head, with a length and types of its own. -/
theorem bytes_read_back_manyFields :
    let r : Response := {
      status := 299
      fields := [
        (encode "content-length", [encode "9"]),
        (encode "x-tag", [encode "a: b", encode ""]),
        (encode "content-type", [encode "text/css", encode "text/html"])]
      body := encode "\r\n\r\nx: y" }
    r.fields.IsSound
      ∧ ∃ head, cut (encode "\r\n\r\n") r.bytes = some (head, encode "\r\n\r\nx: y")
        ∧ splitBy (encode "\r\n") head
            = [encode "HTTP/1.1 ", encode "Content-Length: 8", encode "Content-Type: text/css",
              encode "x-tag: a: b", encode "x-tag: "] := by
  intro r
  have sound : r.fields.IsSound := by decide
  obtain ⟨head, hcut, hsplit, -, -⟩ := bytes_read_back r sound
  refine ⟨sound, head, hcut, ?_⟩
  rw [hsplit]
  decide

end Response

end PbxAgent.Http
