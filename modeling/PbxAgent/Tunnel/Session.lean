import PbxAgent.Frame

/-!
# Tunnel sessions

A session holds the last response that was given on it and the pieces that the backend has yet to
fetch. Cutting a response into pieces loses nothing (`flatten_chunks`).
-/

namespace PbxAgent.Tunnel

/-- Consecutive pieces of `size` bytes, the last one shorter where need be; a size of zero counts
as one. -/
def chunks (size : Nat) : Bytes → List Bytes
  | [] => []
  | c :: r => (c :: r).take (max size 1) :: chunks size ((c :: r).drop (max size 1))
termination_by b => b.length
decreasing_by
  rw [List.length_drop, List.length_cons]
  omega

@[simp] theorem chunks_nil (size : Nat) : chunks size [] = [] := by
  rw [chunks]

theorem flatten_chunks (size : Nat) (b : Bytes) : (chunks size b).flatten = b := by
  fun_induction chunks size b with
  | case1 => rfl
  | case2 c r ih => rw [List.flatten_cons, ih, List.take_append_drop]

/-- One session of a tunnel. -/
structure Session where
  id : SessionId
  /-- The response given last. -/
  response : Bytes := []
  /-- Pieces not fetched yet, oldest first; a response may leave some behind for the next. -/
  pending : List Bytes := []
  deriving DecidableEq

/-- Keeps a new response and lines up its pieces behind those of earlier ones. -/
def Session.answer (s : Session) (response : Bytes) (size : Nat) : Session :=
  { s with response := response, pending := s.pending ++ chunks size response }

/-- The piece to be fetched next, and the session without it. -/
def Session.next? (s : Session) : Option (Bytes × Session) :=
  match s.pending with
  | [] => none
  | c :: r => some (c, { s with pending := r })

end PbxAgent.Tunnel
