import PbxAgent.Proofs.Http.Forwarding

/-!
# What follows a request

A request ends where its framing says, and nothing of it is decided by how many bytes have arrived. So
more bytes behind a request change nothing about it, and a request that is cut short is refused or is
whole already (`trailing_immaterial`).
-/

namespace PbxAgent.Http

open Text.Utf8 (encode)

/-- A body that is taken off some bytes is there in front of anything else. -/
theorem Framing.body_append {f : Framing} {rest body : Bytes} (h : f.body rest = .ok body)
    (x : Bytes) : f.body (rest ++ x) = .ok body := by
  rcases body_eq_ok h with ⟨hchunked, hdecode⟩ | ⟨hno, hlength, rfl⟩ | ⟨hno, n, hlength, hn, rfl⟩
  · simp [Framing.body, hchunked, Chunked.decode_append hdecode x]
  · simp [Framing.body, hno, hlength]
  · have hlong : ¬ (rest ++ x).length < n := by
      rw [List.length_append]
      omega
    simp [Framing.body, hno, hlength, List.take_append_of_le_length hn] at hlong ⊢
    exact hlong

/-- A request that is accepted is accepted as the same in front of anything else. -/
theorem Request.parse_append {b : Bytes} {r : Request} (h : Request.parse b = .ok r) (x : Bytes) :
    Request.parse (b ++ x) = .ok r := by
  obtain ⟨head, rest, framing, hhead, hframing, hbody, hrest⟩ := Request.parse_eq_ok.1 h
  exact Request.parse_eq_ok.2
    ⟨head, rest ++ x, framing, Head.parse_extend hhead x, hframing, Framing.body_append hbody x, hrest⟩

/-- **What follows a request does not bear on it.** An accepted request is accepted with the same method,
target, version, fields and body, whatever comes behind it. What it begins with is no other request:
anything it is cut to is refused or accepted as the same. -/
theorem trailing_immaterial {b : Bytes} {r : Request} (accepted : Request.parse b = .ok r) :
    (∀ x, Request.parse (b ++ x) = .ok r)
      ∧ ∀ p, p <+: b → (∃ e, Request.parse p = .error e) ∨ Request.parse p = .ok r := by
  refine ⟨Request.parse_append accepted, ?_⟩
  rintro p ⟨x, rfl⟩
  cases hp : Request.parse p with
  | error e => exact .inl ⟨e, rfl⟩
  | ok other =>
    -- what was cut off comes back behind the shorter request, which it leaves as it is
    have hsame : Request.parse (p ++ x) = .ok other := Request.parse_append hp x
    rw [accepted] at hsame
    exact .inr hsame.symm

/-- A request in chunks that ends with a field behind the last one: another may follow, and what it is cut
to in front of that field is no other request. -/
theorem trailing_immaterial_chunked :
    let cut := encode "PUT /a HTTP/1.1\r\nTransfer-Encoding: chunked\r\n\r\n2\r\nhi\r\n0\r\n"
    let r : Request := ⟨encode "PUT", { rawPath := encode "/a" }, .http11,
      [(encode "content-length", [encode "2"])], encode "hi"⟩
    Request.parse (cut ++ encode "X: c\r\n\r\n") = .ok r
      ∧ Request.parse (cut ++ encode "X: c\r\n\r\n" ++ encode "GET / HTTP/1.1\r\n\r\n") = .ok r
      ∧ ((∃ e, Request.parse cut = .error e) ∨ Request.parse cut = .ok r) := by
  have hhead : Head.parse
      (encode "PUT /a HTTP/1.1\r\nTransfer-Encoding: chunked\r\n\r\n2\r\nhi\r\n0\r\n"
        ++ encode "X: c\r\n\r\n")
      = .ok (⟨encode "PUT", encode "/a", .http11, [(encode "Transfer-Encoding", encode "chunked")]⟩,
        encode "2\r\nhi\r\n0\r\nX: c\r\n\r\n") := by cbv
  have accepted : Request.parse _ = .ok ⟨encode "PUT", { rawPath := encode "/a" }, .http11,
      [(encode "content-length", [encode "2"])], encode "hi"⟩ :=
    Request.parse_eq_ok.2 ⟨_, _, ⟨none, true, []⟩, hhead, by cbv, by cbv, by cbv, by decide, rfl, rfl,
      by cbv⟩
  obtain ⟨longer, shorter⟩ := trailing_immaterial accepted
  intro cut r
  exact ⟨accepted, longer _, shorter cut ⟨_, rfl⟩⟩

end PbxAgent.Http
