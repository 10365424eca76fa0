import PbxAgent.Http.Uri

/-!
# Endpoints

Where the backend is to be reached, as its URL tells.
-/

namespace PbxAgent.Transport

open Http

/-- A host and a port, with the scheme that is spoken there. -/
structure Endpoint where
  host : Bytes
  port : Nat
  /-- Whether the scheme is one of sockets, with or without encryption. -/
  isSocket : Bool
  deriving DecidableEq, Repr

/-- Why a URL names no endpoint. -/
inductive UrlError where
  | format (e : UriError)
  | noHost
  | scheme
  deriving DecidableEq, Repr

def UrlError.message : UrlError → String
  | format e => "HTTP format error: " ++ e.message
  | noHost => "URL error: No host name in the URL"
  | scheme => "URL error: URL scheme not supported"

namespace Endpoint

/-- The part of an authority behind the last `@`. -/
def hostPort (authority : Bytes) : Bytes :=
  (authority.reverse.takeWhile (· ≠ 0x40)).reverse

/-- The host: an address in brackets, or what stands before the colon. -/
def hostOf (authority : Bytes) : Bytes :=
  let b := hostPort authority
  if b.head? = some 0x5B then b.takeWhile (· ≠ 0x5D) ++ [0x5D] else b.takeWhile (· ≠ 0x3A)

/-- The port behind the last colon of an authority. -/
def port? (authority : Bytes) : Option Nat :=
  if !authority.contains 0x3A then none
  else
    let digits := (authority.reverse.takeWhile (· ≠ 0x3A)).reverse
    let digits := if digits.head? = some 0x2B then digits.drop 1 else digits
    if digits = [] then none
    else match digits.mapM Bytes.digit? with
    | some ds =>
      let n := ds.foldl (fun n d => n * 10 + d) 0
      if n < UInt16.size then some n else none
    | none => none

def plainScheme : Bytes := [0x77, 0x73]
def secureScheme : Bytes := [0x77, 0x73, 0x73]

/-- The port that goes with a scheme. -/
def defaultPort? (scheme : Option Bytes) : Option Nat :=
  if scheme = some plainScheme then some 80
  else if scheme = some secureScheme then some 443
  else none

/-- The endpoint that a URL names. A scheme of another kind is taken as long as there is a port,
and turned down once a connection stands. -/
def ofUrl (url : Bytes) : Except UrlError Endpoint :=
  match Uri.parse url with
  | .error e => .error (.format e)
  | .ok u =>
    if u.authority = [] then .error .noHost
    else match (port? u.authority).or (defaultPort? u.scheme) with
    | some port => .ok ⟨hostOf u.authority, port, (defaultPort? u.scheme).isSome⟩
    | none => .error .scheme

end Endpoint

end PbxAgent.Transport
