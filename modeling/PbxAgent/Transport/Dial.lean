import PbxAgent.Uplink

/-!
# Dialling

What comes of an attempt, as the URL and whoever is behind it will have it.
-/

namespace PbxAgent.Transport

/-- Who is at the place that a URL leads to. -/
inductive Peer where
  /-- Nobody listens. -/
  | absent
  /-- Somebody listens and says nothing. -/
  | silent
  /-- Somebody answers the request for a socket, which takes a certain key, and hangs up. -/
  | answering (accept answer : Bytes)
  /-- The backend. -/
  | backend (arrivals : List Arrival)

/-- An attempt at a URL with a limit on the seconds that it may take. -/
def dial (url : String) (limit : Nat) (peer : Peer) : Attempt :=
  match Endpoint.ofUrl (Text.Utf8.encode url) with
  | .error e => .failed (.endpoint e)
  | .ok endpoint =>
    match endpoint.isSocket, peer with
    | _, .absent => .failed .refused
    | false, _ => .failed (.endpoint .scheme)
    | true, .silent => .failed (.timeout url limit)
    | true, .answering accept answer =>
      match checkAnswer accept answer with
      | .error e => .failed (.upgrade e)
      | .ok () => .accepted none [{ message := .error .reset }]
    | true, .backend arrivals => .accepted none arrivals

end PbxAgent.Transport
