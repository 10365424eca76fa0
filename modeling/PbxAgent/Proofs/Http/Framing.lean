import Mathlib
import PbxAgent.Http.Response
import PbxAgent.Proofs.Http.Chunked
import PbxAgent.Proofs.Http.Head

/-!
# Two ways to frame a body

A body may be sent behind its length or in chunks. Both give the same request (`framings_agree`):
the field that tells the framing is read behind the fields of the head, it is dropped, and the length
of the body comes in its place.
-/

namespace PbxAgent.Http

open Text.Utf8 (encode encode_append)

/-! ## Fields -/

/-- Adding to some fields brings in the name that is added and no other. -/
theorem Fields.mem_names_add {fs : Fields} {name value other : Bytes} :
    other ∈ (fs.add name value).map Prod.fst ↔ other = name ∨ other ∈ fs.map Prod.fst := by
  induction fs with
  | nil => simp [Fields.add]
  | cons f r ih =>
    obtain ⟨n, vs⟩ := f
    by_cases hn : n = name
    · simp [Fields.add, hn]
    · simp only [Fields.add, hn, if_false, List.map_cons, List.mem_cons, ih]
      exact or_left_comm

/-- Names stay apart from each other. -/
theorem Fields.nodup_add {fs : Fields} (h : (fs.map Prod.fst).Nodup) (name value : Bytes) :
    ((fs.add name value).map Prod.fst).Nodup := by
  induction fs with
  | nil => simp [Fields.add]
  | cons f r ih =>
    obtain ⟨n, vs⟩ := f
    rw [List.map_cons, List.nodup_cons] at h
    by_cases hn : n = name
    · simpa [Fields.add, hn] using h
    · rw [Fields.add, if_neg hn, List.map_cons, List.nodup_cons, Fields.mem_names_add, not_or]
      exact ⟨⟨hn, h.1⟩, ih h.2⟩

/-- A name that some fields do not have comes last. -/
theorem Fields.add_of_not_mem {fs : Fields} {name : Bytes} (h : name ∉ fs.map Prod.fst)
    (value : Bytes) : fs.add name value = fs ++ [(name, [value])] := by
  induction fs with
  | nil => rfl
  | cons f r ih =>
    rw [List.map_cons, List.mem_cons, not_or] at h
    rw [Fields.add, if_neg (Ne.symm h.1), ih h.2, List.cons_append]

theorem Fields.values_of_not_mem {fs : Fields} {name : Bytes} (h : name ∉ fs.map Prod.fst) :
    fs.values name = [] := by
  rw [Fields.values, List.find?_eq_none.2]
  · rfl
  · intro f hf hname
    exact h (by rw [← of_decide_eq_true hname]; exact List.mem_map_of_mem hf)

/-! ## Lengths -/

theorem trim_eq_self {cs : List Char} (h : ∀ c ∈ cs, Text.isBlank c = false) :
    Text.trim cs = cs := by
  rw [Text.trim, Head.dropWhile_eq_self h, Head.dropWhile_eq_self (by simpa using h),
    List.reverse_reverse]

theorem isBlank_of_isDigit {c : Char} (h : c.isDigit = true) : Text.isBlank c = false := by
  simp only [Char.isDigit, Bool.and_eq_true, decide_eq_true_eq] at h
  obtain ⟨h₁, h₂⟩ := h
  have hlo : 48 ≤ c.toNat := h₁
  have hhi : c.toNat ≤ 57 := h₂
  simp [Text.isBlank]
  omega

/-- Reading a length undoes writing it in decimal. -/
theorem parseLength_toDigits {n : Nat} (hn : n < UInt64.size) :
    parseLength (Nat.toDigits 10 n) = some n := by
  have hdigits : ∀ c ∈ Nat.toDigits 10 n, c.isDigit = true := fun c hc =>
    Nat.isDigit_of_mem_toDigits (by decide) (by decide) hc
  have hvalue : (Nat.toDigits 10 n).foldl (fun n c => n * 10 + (c.toNat - 0x30)) 0 = n := by
    have hread := Nat.ofDigitChars_toDigits (b := 10) (n := n) (by decide) (by decide)
    simp only [Nat.ofDigitChars, Nat.mul_comm 10] at hread
    exact hread
  unfold parseLength
  split
  next r hr =>
    rw [hr] at hdigits
    exact absurd (hdigits '+' (List.mem_cons_self ..)) (by decide)
  next =>
    dsimp only
    rw [if_neg (by simpa [Nat.toDigits_ne_nil] using hdigits), hvalue, if_pos hn]

/-- A length is declared by its decimal digits. -/
theorem declaredLength_decimalBytes {n : Nat} (hn : n < UInt64.size) :
    declaredLength (decimalBytes n) = some n := by
  have hdigits : ∀ c ∈ Nat.toDigits 10 n, Text.isBlank c = false := fun c hc =>
    isBlank_of_isDigit (Nat.isDigit_of_mem_toDigits (by decide) (by decide) hc)
  rw [declaredLength, decimalBytes, Text.Utf8.decodeChars?_encodeChars, Option.bind_eq_bind,
    Option.bind_some, trim_eq_self hdigits, parseLength_toDigits hn]

theorem all_isWordByte_decimalBytes (n : Nat) : (decimalBytes n).all Head.isWordByte = true := by
  rw [List.all_eq_true]
  intro c hc
  obtain ⟨hlo, hhi⟩ := mem_decimalBytes hc
  have htab : c ≠ 0x09 := by
    rintro rfl
    exact absurd hlo (by decide)
  have hspace : c ≠ 0x20 := by
    rintro rfl
    exact absurd hlo (by decide)
  have hdelete : c ≠ 0x7F := by
    rintro rfl
    exact absurd hhi (by decide)
  have hprinted : 0x20 ≤ c := UInt8.le_trans (by decide) hlo
  rw [Head.isWordByte_iff]
  simp [Head.isValueByte, Head.isBlank, htab, hspace, hdelete, hprinted]

theorem otherCoding_chunked : otherCoding (encode "chunked") = none := by
  rw [otherCoding, Text.Utf8.decodeLossy_encode]
  exact if_pos (by decide)

/-! ## What fields say -/

/-- Whether a field says nothing about how the body is framed. -/
def SaysNothing (f : Bytes × Bytes) : Prop :=
  f.1.map Bytes.toLower ≠ contentLengthName ∧ f.1.map Bytes.toLower ≠ transferEncodingName

instance (f : Bytes × Bytes) : Decidable (SaysNothing f) :=
  inferInstanceAs (Decidable (_ ∧ _))

namespace Framing

theorem add_of_saysNothing {line : Bytes × Bytes} (h : SaysNothing line) (f : Framing) :
    f.add line.1 line.2
      = .ok { f with others := f.others.add (line.1.map Bytes.toLower) line.2 } := by
  rw [add, if_neg h.1, if_neg h.2]

/-- Fields that say nothing about the body go to the others, which keep no name for its framing. -/
theorem foldlM_of_saysNothing {lines : List (Bytes × Bytes)} (h : ∀ l ∈ lines, SaysNothing l)
    {f : Framing} (hlength : contentLengthName ∉ f.others.map Prod.fst)
    (hcoding : transferEncodingName ∉ f.others.map Prod.fst) :
    ∃ others : Fields, lines.foldlM (fun f (line : Bytes × Bytes) => f.add line.1 line.2) f
        = .ok { f with others := others }
      ∧ contentLengthName ∉ others.map Prod.fst ∧ transferEncodingName ∉ others.map Prod.fst := by
  induction lines generalizing f with
  | nil => exact ⟨f.others, rfl, hlength, hcoding⟩
  | cons l r ih =>
    obtain ⟨hl, hr⟩ := List.forall_mem_cons.1 h
    have hnames : ∀ name, name ≠ l.1.map Bytes.toLower → name ∉ f.others.map Prod.fst →
        name ∉ (f.others.add (l.1.map Bytes.toLower) l.2).map Prod.fst := by
      intro name hne hname hmem
      exact (Fields.mem_names_add.1 hmem).elim hne hname
    rw [List.foldlM_cons, add_of_saysNothing hl, ok_bind]
    exact ih hr (hnames _ (Ne.symm hl.1) hlength) (hnames _ (Ne.symm hl.2) hcoding)

/-- What a head says that does not tell how the body is framed. -/
theorem ofLines_of_saysNothing {lines : List (Bytes × Bytes)} (h : ∀ l ∈ lines, SaysNothing l) :
    ∃ others : Fields, ofLines lines = .ok { others := others }
      ∧ contentLengthName ∉ others.map Prod.fst ∧ transferEncodingName ∉ others.map Prod.fst :=
  foldlM_of_saysNothing h List.not_mem_nil List.not_mem_nil

/-- A field that is added to a head is taken in behind its own. -/
theorem ofLines_concat (lines : List (Bytes × Bytes)) (line : Bytes × Bytes) :
    ofLines (lines ++ [line]) = ofLines lines >>= fun f => f.add line.1 line.2 := by
  simp only [ofLines, List.foldlM_append, List.foldlM_cons, List.foldlM_nil, bind_pure]

end Framing

/-! ## Requests -/

/-- A request is what its head, its body and its target are read as. -/
theorem Request.parse_eq_ok {b : Bytes} {r : Request} :
    Request.parse b = .ok r ↔
      ∃ head rest framing, Head.parse b = .ok (head, rest) ∧ Framing.ofLines head.fields = .ok framing
        ∧ framing.body rest = .ok r.body ∧ Uri.parse head.target = .ok r.uri
        ∧ (∀ f ∈ head.fields, f.1.length ≤ maxFieldName)
        ∧ r.method = head.method ∧ r.version = head.version ∧ r.fields = framing.fields r.body := by
  unfold Request.parse
  constructor
  · intro h
    split at h
    · cases h
    next head rest hhead =>
      obtain ⟨framing, hframing, h⟩ := bind_eq_ok.1 h
      obtain ⟨body, hbody, h⟩ := bind_eq_ok.1 h
      split at h
      · cases h
      next uri huri =>
        split at h
        · cases h
        next hnames =>
          cases h
          refine ⟨head, rest, framing, hhead, hframing, hbody, huri, ?_, rfl, rfl, rfl⟩
          simpa using hnames
  · rintro ⟨head, rest, framing, hhead, hframing, hbody, huri, hnames, hmethod, hversion, hfields⟩
    have hshort : head.fields.any (fun f => decide (maxFieldName < f.1.length)) = false := by
      simpa using hnames
    obtain ⟨method, uri, version, fields, body⟩ := r
    dsimp only at hbody huri hmethod hversion hfields
    rw [hhead]
    dsimp only
    rw [hframing, ok_bind, hbody, ok_bind, huri, hmethod, hversion, hfields]
    dsimp only
    rw [hshort]
    rfl

/-- A request is refused for a body that cannot be read. -/
theorem Request.parse_of_body_error {b rest : Bytes} {head : Head} {framing : Framing}
    {e : RequestError} (hhead : Head.parse b = .ok (head, rest))
    (hframing : Framing.ofLines head.fields = .ok framing) (hbody : framing.body rest = .error e) :
    Request.parse b = .error e := by
  rw [Request.parse, hhead]
  dsimp only
  rw [hframing, ok_bind, hbody]
  rfl

/-- Whether some bytes are the start of a request up to its empty line, with no say about the body
and room for one more field: what its head says, and the request it makes without a body. -/
structure Unframed (start : Bytes) (head : Head) (r : Request) : Prop where
  whole : Head.parse (start ++ encode "\r\n") = .ok (head, [])
  accepted : Request.parse (start ++ encode "\r\n") = .ok r
  room : head.fields.length < Head.maxFields
  silent : ∀ f ∈ head.fields, SaysNothing f

namespace Unframed

variable {start : Bytes} {head : Head} {r : Request} (h : Unframed start head r)
include h

/-- The fields of the request are those of its head, none of them about the body. -/
theorem ofLines_eq : Framing.ofLines head.fields = .ok { others := r.fields }
    ∧ contentLengthName ∉ r.fields.map Prod.fst ∧ transferEncodingName ∉ r.fields.map Prod.fst := by
  obtain ⟨others, hothers, hlength, hcoding⟩ := Framing.ofLines_of_saysNothing h.silent
  obtain ⟨head', rest, framing, hhead, hframing, -, -, -, -, -, hfields⟩ :=
    Request.parse_eq_ok.1 h.accepted
  rw [h.whole] at hhead
  cases hhead
  rw [hothers] at hframing
  cases hframing
  rw [show r.fields = others from hfields]
  exact ⟨hothers, hlength, hcoding⟩

/-- One more field in front of the empty line says how the body is read, and nothing else of the
request changes. -/
theorem parse_append {name value body rest : Bytes} {f : Framing} (hname : name ≠ [])
    (htoken : name.all Head.isToken = true) (hlength : name.length ≤ maxFieldName)
    (hvalue : value.all Head.isWordByte = true)
    (hadd : Framing.add { others := r.fields } name value = .ok f)
    (hbody : f.body rest = .ok body) :
    Request.parse (start ++ (name ++ [0x3A, 0x20] ++ value ++ [0x0D, 0x0A] ++ ([0x0D, 0x0A] ++ rest)))
      = .ok { r with fields := f.fields body, body := body } := by
  -- the added field is read in the room that the head leaves, so one place has to be split off
  obtain ⟨more, hmore⟩ := Nat.exists_eq_add_of_lt h.room
  have hroom : head.fields.length + (more + 1) = Head.maxFields := by omega
  obtain ⟨head', rest', framing, hhead, -, -, huri, hnames, hmethod, hversion, -⟩ :=
    Request.parse_eq_ok.1 h.accepted
  rw [h.whole] at hhead
  cases hhead
  have hparse := Head.parse_append h.whole hroom
    (name ++ [0x3A, 0x20] ++ value ++ [0x0D, 0x0A] ++ ([0x0D, 0x0A] ++ rest))
  rw [Head.fieldLines_single hname (List.all_eq_true.1 htoken) (List.all_eq_true.1 hvalue)] at hparse
  refine Request.parse_eq_ok.2 ⟨_, rest, f, hparse, ?_, hbody, huri, ?_, hmethod, hversion, rfl⟩
  · rw [Framing.ofLines_concat, h.ofLines_eq.1, ok_bind, hadd]
  · intro g hg
    rcases List.mem_append.1 hg with hg | hg
    · exact hnames g hg
    · rw [List.mem_singleton.1 hg]
      exact hlength

/-- A body behind its length. -/
theorem parse_length {body : Bytes} (fits : body.length < UInt64.size) (after : Bytes) :
    Request.parse (start ++ encode ("Content-Length: " ++ toString body.length ++ "\r\n\r\n")
        ++ body ++ after)
      = .ok { r with
          fields := r.fields.add contentLengthName (decimalBytes body.length), body := body } := by
  have hadd : Framing.add { others := r.fields } (encode "Content-Length") (decimalBytes body.length)
      = .ok { length := some body.length, others := r.fields } := by
    rw [Framing.add, if_pos (by decide), declaredLength_decimalBytes fits]
  have hbody : Framing.body { length := some body.length, others := r.fields } (body ++ after)
      = .ok body := by
    simp [Framing.body]
  have hparse := h.parse_append (by decide) (by decide) (by decide)
    (all_isWordByte_decimalBytes body.length) hadd hbody
  have hline : encode ("Content-Length: " ++ toString body.length ++ "\r\n\r\n")
      = encode "Content-Length" ++ [0x3A, 0x20] ++ decimalBytes body.length
        ++ [0x0D, 0x0A] ++ [0x0D, 0x0A] := by
    rw [encode_append, encode_append, ← encode_repr, List.append_assoc _ [0x0D, 0x0A]]
    rfl
  rw [hline]
  simpa only [List.append_assoc, Framing.fields, Option.isSome_some, Bool.or_true, if_true]
    using hparse

/-- A body in chunks. -/
theorem parse_chunks {chunks : List Chunked.Chunk} {last : Chunked.SizeLine}
    (sound : ∀ c ∈ chunks, c.IsSound) (ended : last.Tells 0)
    (fits : (Chunked.dataOf chunks).length < UInt64.size) (after : Bytes) :
    Request.parse (start ++ encode "Transfer-Encoding: chunked\r\n\r\n"
        ++ chunks.flatMap (·.bytes) ++ last.bytes ++ after)
      = .ok { r with
          fields := r.fields.add contentLengthName (decimalBytes (Chunked.dataOf chunks).length)
          body := Chunked.dataOf chunks } := by
  have hadd : Framing.add { others := r.fields } (encode "Transfer-Encoding") (encode "chunked")
      = .ok { chunked := true, others := r.fields } := by
    rw [Framing.add, if_neg (by decide), if_pos (by decide), otherCoding_chunked]
  have hbody : Framing.body { chunked := true, others := r.fields }
      (chunks.flatMap (·.bytes) ++ (last.bytes ++ after)) = .ok (Chunked.dataOf chunks) := by
    rw [Framing.body, if_pos rfl, Chunked.decode_chunks sound ended fits]
  have hparse := h.parse_append (by decide) (by decide) (by decide) (by decide) hadd hbody
  have hline : encode "Transfer-Encoding: chunked\r\n\r\n"
      = encode "Transfer-Encoding" ++ [0x3A, 0x20] ++ encode "chunked"
        ++ [0x0D, 0x0A] ++ [0x0D, 0x0A] := rfl
  rw [hline]
  simpa only [List.append_assoc, Framing.fields, Bool.true_or, if_true] using hparse

end Unframed

/-- **A body that is sent behind its length and one that is sent in chunks are the same request.** The
start is any that is a request without a body, says nothing about one and has room for a field; the
body is cut and the sizes are spelled in any way, and anything may follow. -/
theorem framings_agree {start : Bytes} {head : Head} {r : Request} (unframed : Unframed start head r)
    {chunks : List Chunked.Chunk} {last : Chunked.SizeLine} (sound : ∀ c ∈ chunks, c.IsSound)
    (ended : last.Tells 0) {body : Bytes} (pieces : chunks.flatMap (·.data) = body)
    (fits : body.length < UInt64.size) (after after' : Bytes) :
    let framed : Request := { r with
      fields := r.fields ++ [(encode "content-length", [encode (toString body.length)])]
      body := body }
    Request.parse (start ++ encode ("Content-Length: " ++ toString body.length ++ "\r\n\r\n")
        ++ body ++ after) = .ok framed
      ∧ Request.parse (start ++ encode "Transfer-Encoding: chunked\r\n\r\n"
        ++ chunks.flatMap (·.bytes) ++ last.bytes ++ after') = .ok framed
      ∧ framed.fields.values (encode "content-length") = [encode (toString body.length)]
      ∧ framed.fields.values (encode "transfer-encoding") = [] := by
  intro framed
  obtain ⟨-, hlength, hcoding⟩ := unframed.ofLines_eq
  have hfields : r.fields.add contentLengthName (decimalBytes body.length) = framed.fields := by
    rw [Fields.add_of_not_mem hlength, ← encode_repr]
    rfl
  have hnames : encode "transfer-encoding" ∉ framed.fields.map Prod.fst := by
    rw [List.map_append, List.mem_append, not_or]
    refine ⟨hcoding, ?_⟩
    rw [List.map_singleton, List.mem_singleton]
    show transferEncodingName ≠ encode "content-length"
    decide
  refine ⟨?_, ?_, ?_, Fields.values_of_not_mem hnames⟩
  · rw [unframed.parse_length fits, hfields]
  · have hdata : Chunked.dataOf chunks = body := pieces
    rw [unframed.parse_chunks sound ended (by rwa [hdata]), hdata, hfields]
  · rw [← hfields, ← encode_repr]
    show (r.fields.add contentLengthName _).values contentLengthName = _
    rw [Fields.values_add_self, Fields.values_of_not_mem hlength]
    rfl

/-- A small body in two pieces, the size of one with a zero in front and an extension behind it. -/
theorem framings_agree_twoPieces :
    let framed : Request := {
      method := encode "POST"
      uri := { rawPath := encode "/api" }
      version := .http11
      fields := [(encode "host", [encode "pbx"]), (encode "content-length", [encode "21"])]
      body := encode "hello world0123456789" }
    Request.parse (encode "POST /api HTTP/1.1\r\nHost: pbx\r\nContent-Length: 21\r\n\r\n"
        ++ encode "hello world0123456789" ++ encode "GET") = .ok framed
      ∧ Request.parse (encode "POST /api HTTP/1.1\r\nHost: pbx\r\nTransfer-Encoding: chunked\r\n\r\n"
        ++ encode "0b;a=1\r\nhello world\r\nA\r\n0123456789\r\n" ++ encode "0\r\n"
        ++ encode "x: y\r\n") = .ok framed := by
  intro framed
  have unframed : Unframed (encode "POST /api HTTP/1.1\r\nHost: pbx\r\n")
      ⟨encode "POST", encode "/api", .http11, [(encode "Host", encode "pbx")]⟩
      ⟨encode "POST", { rawPath := encode "/api" }, .http11, [(encode "host", [encode "pbx"])], []⟩ :=
    ⟨by cbv, by cbv, by decide, by decide⟩
  have hello : Chunked.Chunk.IsSound
      ⟨⟨encode "0b", some (encode "a=1")⟩, encode "hello world"⟩ :=
    ⟨⟨by cbv, by decide, by decide⟩, by decide⟩
  have digits : Chunked.Chunk.IsSound ⟨⟨encode "A", none⟩, encode "0123456789"⟩ :=
    ⟨⟨by cbv, by decide, by decide⟩, by decide⟩
  have ended : Chunked.SizeLine.Tells ⟨encode "0", none⟩ 0 := ⟨by cbv, by decide, by decide⟩
  have sound := List.forall_mem_cons.2 ⟨hello, List.forall_mem_singleton.2 digits⟩
  have pieces : [encode "hello world", encode "0123456789"].flatten
      = encode "hello world0123456789" := by cbv
  obtain ⟨hlength, hchunks, -, -⟩ := framings_agree unframed sound ended pieces (by decide)
    (encode "GET") (encode "x: y\r\n")
  constructor
  · refine Eq.trans (congrArg Request.parse ?_) (hlength.trans (congrArg Except.ok ?_))
    · cbv
    · cbv
  · refine Eq.trans (congrArg Request.parse ?_) (hchunks.trans (congrArg Except.ok ?_))
    · cbv
    · cbv

/-- A size with more zeros in front than there is room for is refused, so that the two framings part. -/
theorem framings_notAgree :
    Unframed (encode "POST / HTTP/1.1\r\n") ⟨encode "POST", encode "/", .http11, []⟩
        ⟨encode "POST", { rawPath := encode "/" }, .http11, [], []⟩
      ∧ Chunked.hexNumber? (encode "00000000000000005") = some 5
      ∧ Request.parse (encode "POST / HTTP/1.1\r\nContent-Length: 5\r\n\r\nhello")
        = .ok ⟨encode "POST", { rawPath := encode "/" }, .http11,
            [(encode "content-length", [encode "5"])], encode "hello"⟩
      ∧ Request.parse (encode "POST / HTTP/1.1\r\nTransfer-Encoding: chunked\r\n\r\n"
          ++ encode "00000000000000005\r\nhello\r\n0\r\n\r\n") = .error (.chunks .invalidSize) := by
  have unframed : Unframed (encode "POST / HTTP/1.1\r\n") ⟨encode "POST", encode "/", .http11, []⟩
      ⟨encode "POST", { rawPath := encode "/" }, .http11, [], []⟩ :=
    ⟨by cbv, by cbv, by decide, by decide⟩
  have fits : (encode "hello").length < UInt64.size := by decide
  have hlength := unframed.parse_length fits []
  have hhead : Head.parse (encode "POST / HTTP/1.1\r\nTransfer-Encoding: chunked\r\n\r\n"
        ++ encode "00000000000000005\r\nhello\r\n0\r\n\r\n")
      = .ok (⟨encode "POST", encode "/", .http11,
          [(encode "Transfer-Encoding", encode "chunked")]⟩,
        encode "00000000000000005\r\nhello\r\n0\r\n\r\n") := by cbv
  have hsize : Chunked.sizeLine (encode "00000000000000005\r\nhello\r\n0\r\n\r\n")
      = .error .invalidSize := by decide
  have hframing : Framing.ofLines [(encode "Transfer-Encoding", encode "chunked")]
      = .ok { chunked := true } := by
    rw [Framing.ofLines, List.foldlM_cons, Framing.add, if_neg (by decide), if_pos (by decide),
      otherCoding_chunked]
    rfl
  refine ⟨unframed, by decide, ?_, ?_⟩
  · refine Eq.trans (congrArg Request.parse ?_) (hlength.trans (congrArg Except.ok ?_))
    · cbv
    · cbv
  · refine Request.parse_of_body_error hhead hframing ?_
    rw [Framing.body, if_pos rfl, Chunked.decode_of_error hsize]

end PbxAgent.Http
