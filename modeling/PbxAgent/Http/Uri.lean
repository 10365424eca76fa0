import PbxAgent.Text.Utf8

/-!
# Request targets

A target is a path with an optional query, an asterisk, an authority alone, or a scheme with an
authority and a path. Fragments are cut off.
-/

namespace PbxAgent.Http

/-- A target in its parts. -/
structure Uri where
  scheme : Option Bytes := none
  /-- Empty if there is none. -/
  authority : Bytes := []
  /-- As written; empty where a query or nothing follows the authority. -/
  rawPath : Bytes := []
  query : Option Bytes := none
  deriving DecidableEq, Repr

/-- Why bytes are no target. -/
inductive UriError where
  | character
  | authority
  | format
  | tooLong
  | empty
  | schemeTooLong
  deriving DecidableEq, Repr

def UriError.message : UriError → String
  | character => "invalid uri character"
  | authority => "invalid authority"
  | format => "invalid format"
  | tooLong => "uri too long"
  | empty => "empty string"
  | schemeTooLong => "scheme too long"

namespace Uri

/-- The path: a target with a scheme or a query has at least a slash, an authority alone has
none. -/
def path (u : Uri) : Bytes :=
  if u.rawPath = [] ∧ (u.scheme.isSome ∨ u.query.isSome) then [0x2F] else u.rawPath

/-- The target as it is shown. -/
def bytes (u : Uri) : Bytes :=
  (match u.scheme with
    | some s => s ++ [0x3A, 0x2F, 0x2F]
    | none => [])
  ++ u.authority ++ u.path
  ++ match u.query with
    | some q => 0x3F :: q
    | none => []

/-! ## Scheme -/

def httpScheme : Bytes := [0x68, 0x74, 0x74, 0x70]
def httpsScheme : Bytes := [0x68, 0x74, 0x74, 0x70, 0x73]

def isLetter (c : UInt8) : Bool := (0x41 ≤ c && c ≤ 0x5A) || (0x61 ≤ c && c ≤ 0x7A)
def isDigit (c : UInt8) : Bool := 0x30 ≤ c && c ≤ 0x39

/-- Letters, digits and `+`, `-`, `.`, `~`. -/
def isSchemeByte (c : UInt8) : Bool :=
  isLetter c || isDigit c || c = 0x2B || c = 0x2D || c = 0x2E || c = 0x7E

/-- The longest scheme that is taken. -/
def maxScheme : Nat := 64

/-- The scheme in front of a colon and two slashes, and what follows; none if there is no such.
The two schemes of the web are taken in either case and given in small letters. -/
def splitScheme (b : Bytes) : Except UriError (Option Bytes × Bytes) :=
  let name := b.takeWhile isSchemeByte
  match b.dropWhile isSchemeByte with
  | 0x3A :: 0x2F :: 0x2F :: rest =>
    if name.map Bytes.toLower = httpScheme then .ok (some httpScheme, rest)
    else if name.map Bytes.toLower = httpsScheme then .ok (some httpsScheme, rest)
    else if b.length ≤ 3 then .ok (none, b)
    else if maxScheme < name.length then .error .schemeTooLong
    else .ok (some name, rest)
  | _ => .ok (none, b)

/-! ## Authority -/

/-- Bytes that may stand in a target at all, other than the percent sign. -/
def isUriByte (c : UInt8) : Bool :=
  isLetter c || isDigit c || ([0x21, 0x23, 0x24, 0x26, 0x27, 0x28, 0x29, 0x2A, 0x2B, 0x2C, 0x2D,
    0x2E, 0x2F, 0x3A, 0x3B, 0x3D, 0x3F, 0x40, 0x5B, 0x5D, 0x5F, 0x7E] : Bytes).contains c

/-- The most colons that an address in brackets may hold. -/
def maxColons : Nat := 8

/-- What has been seen of an authority. Colons and percent signs are forgotten at an `@` and at a
closing bracket, since before them they mean something else. -/
structure AuthorityScan where
  colons : Nat := 0
  opened : Bool := false
  closed : Bool := false
  percent : Bool := false
  endsAt : Bool := false
  deriving DecidableEq, Repr

/-- Takes in one byte. -/
def AuthorityScan.step (s : AuthorityScan) (c : UInt8) : Except UriError AuthorityScan :=
  if c = 0x3A then
    if maxColons ≤ s.colons then .error .authority
    else .ok { s with colons := s.colons + 1, endsAt := false }
  else if c = 0x5B then
    if s.percent || s.opened then .error .authority
    else .ok { s with opened := true, endsAt := false }
  else if c = 0x5D then
    if !s.opened || s.closed then .error .authority
    else .ok { s with closed := true, colons := 0, percent := false, endsAt := false }
  else if c = 0x40 then .ok { s with colons := 0, percent := false, endsAt := true }
  else if c = 0x25 then .ok { s with percent := true, endsAt := false }
  else if isUriByte c then .ok { s with endsAt := false }
  else .error .character

/-- Whether all that was opened is closed, at most one colon is left for a port, and something
follows the `@`. -/
def AuthorityScan.complete (s : AuthorityScan) : Bool :=
  s.opened == s.closed && s.colons ≤ 1 && !s.endsAt && !s.percent

/-- Bytes that end an authority. -/
def endsAuthority (c : UInt8) : Bool :=
  c = 0x2F || c = 0x3F || c = 0x23

/-- The authority at the front of some bytes, possibly empty, and what follows. -/
def splitAuthority (b : Bytes) : Except UriError (Bytes × Bytes) := do
  let name := b.takeWhile (!endsAuthority ·)
  let s ← name.foldlM AuthorityScan.step {}
  if s.complete then return (name, b.dropWhile (!endsAuthority ·)) else .error .authority

/-! ## Path and query -/

/-- Bytes of a path: most of ASCII, and anything above it. Neither mark of its end is one. -/
def isPathByte (c : UInt8) : Bool :=
  c = 0x21 || c = 0x22 || (0x24 ≤ c && c ≤ 0x3B) || c = 0x3D || (0x40 ≤ c && c ≤ 0x5F)
    || (0x61 ≤ c && c ≤ 0x7E) || 0x7F ≤ c

/-- Bytes of a query; the mark of its end is none. -/
def isQueryByte (c : UInt8) : Bool :=
  c = 0x21 || (0x24 ≤ c && c ≤ 0x3B) || c = 0x3D || 0x3F ≤ c

/-- The path and the query in some bytes; a fragment after them is not looked at. -/
def splitPath (b : Bytes) : Except UriError (Bytes × Option Bytes) :=
  let path := b.takeWhile isPathByte
  let found : Except UriError (Bytes × Option Bytes) :=
    match b.drop path.length with
    | [] => .ok (path, none)
    | 0x23 :: _ => .ok (path, none)
    | 0x3F :: r =>
      let query := r.takeWhile isQueryByte
      match r.drop query.length with
      | [] => .ok (path, some query)
      | 0x23 :: _ => .ok (path, some query)
      | _ => .error .character
    | _ => .error .character
  match found with
  | .ok (p, q) =>
    if Text.Utf8.isValid p && Text.Utf8.isValid (q.getD []) then .ok (p, q) else .error .character
  | .error e => .error e

/-! ## Targets -/

/-- The longest target that is taken. -/
def maxLength : Nat := 65534

/-- Reads a target. -/
def parse (b : Bytes) : Except UriError Uri :=
  if maxLength < b.length then .error .tooLong
  else match b with
  | [] => .error .empty
  | 0x2F :: _ => do
    let (path, query) ← splitPath b
    return { rawPath := path, query := query }
  | [0x2A] => .ok { rawPath := [0x2A] }
  | [_] => do
    let (name, rest) ← splitAuthority b
    if rest = [] then return { authority := name } else .error .character
  | _ => do
    let (scheme, b) ← splitScheme b
    if b = [] then throw .empty
    let (name, rest) ← splitAuthority b
    match scheme with
    | none => if rest = [] then return { authority := name } else .error .format
    | some s =>
      if name = [] then .error .format
      else
        let (path, query) ← splitPath rest
        return { scheme := some s, authority := name, rawPath := path, query := query }

end Uri

end PbxAgent.Http
