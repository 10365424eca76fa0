import PbxAgent.Error
import PbxAgent.Tunnel.Session

/-!
# The table of sessions

The sessions that are open, by their numbers. The backend sends a request on a session and fetches
the response piece by piece; a session opens with its first request and stays open until it is shut
down, whether or not its requests succeed.
-/

namespace PbxAgent

/-- Answers requests. -/
abbrev Handler := Http.Request → Except String Http.Response

namespace Tunnel

/-- Open sessions, no two of one number. -/
structure Table where
  /-- The most bytes of a piece; zero counts as one. -/
  pieceSize : Nat
  sessions : List Session := []
  distinct : (sessions.map Session.id).Nodup := by exact List.nodup_nil

namespace Table

/-! ## Sessions by number -/

/-- The session of a number, if it is open. -/
def get? (t : Table) (id : SessionId) : Option Session :=
  t.sessions.find? (·.id = id)

def isOpen (t : Table) (id : SessionId) : Bool :=
  (t.get? id).isSome

/-- How many sessions are open. -/
def size (t : Table) : Nat :=
  t.sessions.length

theorem nodup_filter {sessions : List Session} (h : (sessions.map Session.id).Nodup)
    (keep : Session → Bool) : ((sessions.filter keep).map Session.id).Nodup :=
  h.sublist (List.filter_sublist.map _)

/-- The table without a session. -/
def erase (t : Table) (id : SessionId) : Table where
  pieceSize := t.pieceSize
  sessions := t.sessions.filter (·.id ≠ id)
  distinct := nodup_filter t.distinct _

/-- The table with a session in place of any of its number. -/
def set (t : Table) (s : Session) : Table where
  pieceSize := t.pieceSize
  sessions := s :: t.sessions.filter (·.id ≠ s.id)
  distinct := by
    have := nodup_filter t.distinct (fun x : Session => x.id ≠ s.id)
    simp only [List.map_cons, List.nodup_cons, this, and_true]
    simp

/-- The table without any session. -/
def clear (t : Table) : Table where
  pieceSize := t.pieceSize

theorem find?_filter_ne {sessions : List Session} {id other : SessionId} (h : other ≠ id) :
    (sessions.filter (·.id ≠ id)).find? (·.id = other) = sessions.find? (·.id = other) := by
  induction sessions with
  | nil => rfl
  | cons s r ih =>
    by_cases hs : s.id = id
    · have ho : s.id ≠ other := by rw [hs]; exact Ne.symm h
      simp_all
    · by_cases ho : s.id = other <;> simp_all

theorem get?_set_self (t : Table) (s : Session) : (t.set s).get? s.id = some s := by
  simp [get?, set]

theorem get?_set_ne (t : Table) {s : Session} {id : SessionId} (h : id ≠ s.id) :
    (t.set s).get? id = t.get? id := by
  have := @find?_filter_ne t.sessions s.id id h
  simp_all [get?, set, Ne.symm h]

theorem get?_erase_self (t : Table) (id : SessionId) : (t.erase id).get? id = none := by
  simp [get?, erase]

theorem get?_erase_ne (t : Table) {id other : SessionId} (h : other ≠ id) :
    (t.erase id).get? other = t.get? other := by
  have := @find?_filter_ne t.sessions id other h
  simp_all [get?, erase]

/-! ## Messages -/

/-- The table with the session open. -/
def openSession (t : Table) (id : SessionId) : Table :=
  if t.isOpen id then t else t.set { id := id }

/-- Has a request answered and keeps the response for the backend to fetch. -/
def send (handler : Handler) (t : Table) (m : TunnelMessage) :
    Except AgentError TunnelMessage × Table :=
  let t := t.openSession m.session
  match Http.Request.parse m.data with
  | .error e => (.error (.protocol (.request e)), t)
  | .ok request =>
    match handler request with
    | .error text => (.error (.protocol (.handler text)), t)
    | .ok response =>
      let s := (t.get? m.session).getD { id := m.session }
      (.ok (.of m.session .sendResult []), t.set (s.answer response.bytes t.pieceSize))

/-- Hands out the next piece. -/
def receive (t : Table) (id : SessionId) : Except AgentError TunnelMessage × Table :=
  match (t.get? id).bind Session.next? with
  | some (piece, s) => (.ok (.of id .receiveResult piece), t.set s)
  | none => (.error (.noChunksLeft id), t)

/-- Closes a session, which need not be open. -/
def shutdown (t : Table) (id : SessionId) : TunnelMessage × Table :=
  (.of id .shutdown [], t.erase id)

/-- Acts on a message and gives the reply. -/
def handle (handler : Handler) (t : Table) (m : TunnelMessage) :
    Except AgentError TunnelMessage × Table :=
  match TunnelEvent.ofCode? m.event with
  | some .send => t.send handler m
  | some .receive => t.receive m.session
  | some .shutdown => let (reply, t) := t.shutdown m.session; (.ok reply, t)
  | _ => (.error (.protocol (.unknownEvent m.event)), t)

end Table

end Tunnel

end PbxAgent
