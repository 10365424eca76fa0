import PbxAgent.Json.Number
import PbxAgent.Schema.Member

/-!
# Reading JSON values

Values are read straight off the text into what they are wanted for. A value that nobody asked for
is gone through with a stack of the brackets it leaves open, to any depth.
-/

namespace PbxAgent.Json

open Schema

/-! ## Literals -/

/-- Reads the letters of a literal. -/
def literal : Bytes → Bytes → Except Fault Bytes
  | [], b => .ok b
  | _ :: _, [] => .error (.before .eofInValue [])
  | e :: es, c :: r => if c = e then literal es r else .error (.before .expectedLiteral r)

def ull : Bytes := [0x75, 0x6C, 0x6C]
def rue : Bytes := [0x72, 0x75, 0x65]
def alse : Bytes := [0x61, 0x6C, 0x73, 0x65]

/-- Makes sure that the text has something other than blanks, and gives it from there on. -/
def value (b : Bytes) : Except Fault Bytes :=
  match skipBlank b with
  | [] => .error (.atHead .eofInValue [])
  | r => .ok r

/-! ## A value of another type than expected -/

/-- A fault for the value at the front of a text, behind that value where it is a scalar. A fault
inside the value goes first. -/
def unexpected (expected : String) (b : Bytes) : Fault :=
  let mismatch (found : Found) (rest : Bytes) : Fault :=
    .before (.mismatch (.type found expected)) rest
  let after (found : Found) (r : Except Fault Bytes) : Fault :=
    match r with
    | .ok rest => mismatch found rest
    | .error f => f
  let read (r : Except Fault (Found × Bytes)) : Fault :=
    match r with
    | .ok (found, rest) => mismatch found rest
    | .error f => f
  match b with
  | [] => .atHead .expectedValue []
  | c :: r =>
    if c = 0x6E then after .null (literal ull r)
    else if c = 0x74 then after (.flag true) (literal rue r)
    else if c = 0x66 then after (.flag false) (literal alse r)
    else if c = 0x2D then read (number true r)
    else if isDigit c then read (number false b)
    else if c = quote then read ((stringText r).map fun (s, rest) => (.text s, rest))
    else if c = 0x5B then mismatch .sequence b
    else if c = 0x7B then mismatch .map b
    else .atHead .expectedValue b

/-! ## Scalars -/

def text : Reader String := fun b => do
  match ← value b with
  | c :: r => if c = quote then stringText r else .error (unexpected "a string" (c :: r))
  | [] => .error (unexpected "a string" [])

def flag : Reader Bool := fun b => do
  match ← value b with
  | c :: r =>
    if c = 0x74 then return (true, ← literal rue r)
    else if c = 0x66 then return (false, ← literal alse r)
    else .error (unexpected "a boolean" (c :: r))
  | [] => .error (unexpected "a boolean" [])

/-! ## Going through a value -/

/-- An open bracket. -/
inductive Bracket where
  | list
  | object
  deriving DecidableEq, Repr

def Bracket.closing : Bracket → UInt8
  | list => 0x5D
  | object => 0x7D

def Bracket.eof : Bracket → Cause
  | list => .eofInList
  | object => .eofInObject

def Bracket.expectedCommaOrEnd : Bracket → Cause
  | list => .expectedListCommaOrEnd
  | object => .expectedObjectCommaOrEnd

/-- Goes over a colon. -/
def colon (b : Bytes) : Except Fault Bytes :=
  match skipBlank b with
  | [] => .error (.atHead .eofInObject [])
  | c :: r => if c = 0x3A then .ok r else .error (.atHead .expectedColon (c :: r))

/-- Goes over what stands in front of the next value: a key and a colon in an object. -/
def skipKey : Bracket → Bytes → Except Fault Bytes
  | .list, b => .ok b
  | .object, b =>
    match skipBlank b with
    | [] => .error (.atHead .eofInObject [])
    | c :: r =>
      if c = quote then do colon (← skipString r) else .error (.atHead .keyMustBeString (c :: r))

/-- Where the reader of a skipped value stands. -/
inductive SkipState where
  /-- Before a value, inside the brackets. -/
  | value (open_ : List Bracket)
  /-- Behind an opening bracket, or behind a value if `comma` tells that one may follow. -/
  | inside (comma : Bool) (top : Bracket) (open_ : List Bracket)
  /-- Behind the whole value. -/
  | done
  deriving DecidableEq, Repr

/-- Behind a value. -/
def SkipState.after : List Bracket → SkipState
  | [] => .done
  | t :: s => .inside true t s

/-- Takes one token, more or less, off the text. -/
def skipStep : SkipState → Bytes → Except Fault (SkipState × Bytes)
  | .done, b => .ok (.done, b)
  | .value open_, b => do
    match ← value b with
    | [] => .error (.atHead .expectedValue [])
    | c :: r =>
      if c = 0x6E then return (.after open_, ← literal ull r)
      else if c = 0x74 then return (.after open_, ← literal rue r)
      else if c = 0x66 then return (.after open_, ← literal alse r)
      else if c = 0x2D then return (.after open_, ← skipNumber r)
      else if isDigit c then return (.after open_, ← skipNumber (c :: r))
      else if c = quote then return (.after open_, ← skipString r)
      else if c = 0x5B then return (.inside false .list open_, r)
      else if c = 0x7B then return (.inside false .object open_, r)
      else .error (.atHead .expectedValue (c :: r))
  | .inside comma top open_, b =>
    match skipBlank b with
    | [] => .error (.atHead top.eof [])
    | c :: r =>
      if comma ∧ c = 0x2C then do return (.value (top :: open_), ← skipKey top r)
      else if c = top.closing then .ok (.after open_, r)
      else if comma then .error (.atHead top.expectedCommaOrEnd (c :: r))
      else do return (.value (top :: open_), ← skipKey top (c :: r))

/-- Takes steps until the value is through; `fuel` bounds them. -/
def skipSteps : Nat → SkipState → Bytes → Except Fault Bytes
  | _, .done, b => .ok b
  | 0, _, b => .error (.before .expectedValue b)
  | fuel + 1, s, b => do
    let (s, b) ← skipStep s b
    skipSteps fuel s b

/-- Goes through one value of any kind. A scalar is through after one step; of the steps through
anything else, any two take a byte at least off the text. -/
def skipValue (b : Bytes) : Except Fault Bytes := do
  match ← skipStep (.value []) b with
  | (.done, rest) => return rest
  | (s, rest) => skipSteps (2 * rest.length + 1) s rest

/-! ## Lists -/

/-- Whether another element follows, and the text from there on. -/
def moreElements (first : Bool) (b : Bytes) : Except Fault (Bool × Bytes) :=
  match skipBlank b with
  | [] => .error (.atHead .eofInList [])
  | c :: r =>
    if c = 0x5D then .ok (false, c :: r)
    else if first then .ok (true, c :: r)
    else if c ≠ 0x2C then .error (.atHead .expectedListCommaOrEnd (c :: r))
    else match skipBlank r with
    | [] => .error (.atHead .eofInValue [])
    | d :: r => if d = 0x5D then .error (.atHead .trailingComma (d :: r)) else .ok (true, d :: r)

/-- Goes over the end of a list. -/
def endList (b : Bytes) : Except Fault Bytes :=
  match skipBlank b with
  | [] => .error (.atHead .eofInList [])
  | c :: r =>
    if c = 0x5D then .ok r
    else if c = 0x2C then
      match skipBlank r with
      | d :: s =>
        if d = 0x5D then .error (.atHead .trailingComma (d :: s))
        else .error (.atHead .trailingCharacters (d :: s))
      | [] => .error (.atHead .trailingCharacters [])
    else .error (.atHead .trailingCharacters (c :: r))

/-- The elements of a list, from behind its opening bracket up to its closing one; `fuel` bounds
their number. -/
def elements {α : Type} (read : Reader α) : Nat → Bool → Reader (List α)
  | 0, _, b => .error (.before .expectedValue b)
  | fuel + 1, first, b => do
    let (more, b) ← moreElements first b
    if more then
      let (x, b) ← read b
      let (xs, b) ← elements read fuel false b
      return (x :: xs, b)
    else return ([], b)

def list {α : Type} (read : Reader α) : Reader (List α) := fun b => do
  match ← value b with
  | c :: r =>
    if c = 0x5B then
      let (xs, rest) ← elements read (r.length + 1) true r
      return (xs, ← endList rest)
    else .error (unexpected "a sequence" (c :: r))
  | [] => .error (unexpected "a sequence" [])

/-! ## Records -/

/-- A member of a record in JSON text. -/
abbrev Member (σ : Type) := Schema.Member Reader σ

/-- Whether another member of an object follows, and the text from there on. -/
def moreMembers (first : Bool) (b : Bytes) : Except Fault (Bool × Bytes) :=
  match skipBlank b with
  | [] => .error (.atHead .eofInObject [])
  | c :: r =>
    if c = 0x7D then .ok (false, c :: r)
    else if first then
      if c = quote then .ok (true, c :: r) else .error (.atHead .keyMustBeString (c :: r))
    else if c ≠ 0x2C then .error (.atHead .expectedObjectCommaOrEnd (c :: r))
    else match skipBlank r with
    | [] => .error (.atHead .eofInValue [])
    | d :: r =>
      if d = quote then .ok (true, d :: r)
      else if d = 0x7D then .error (.atHead .trailingComma (d :: r))
      else .error (.atHead .keyMustBeString (d :: r))

/-- Goes over the end of an object. -/
def endObject (b : Bytes) : Except Fault Bytes :=
  match skipBlank b with
  | [] => .error (.atHead .eofInObject [])
  | c :: r =>
    if c = 0x7D then .ok r
    else if c = 0x2C then .error (.atHead .trailingComma (c :: r))
    else .error (.atHead .trailingCharacters (c :: r))

/-- How filling a record stops early. A mismatch of the record as a whole has no place of its own
yet: it gets the one that the reader comes to when it looks for the record's end. -/
inductive Stop where
  | fault (f : Fault)
  | mismatch (m : Mismatch) (rest : Bytes)

/-- A fault has its place already. -/
def stopAt {α : Type} : Except Fault α → Except Stop α
  | .ok a => .ok a
  | .error f => .error (.fault f)

/-- The members of an object, from behind its opening brace up to its closing one. A key that
names no member has its value skipped. -/
def objectMembers {σ : Type} (members : List (Member σ)) :
    Nat → Bool → Draft σ → Bytes → Except Stop (Draft σ × Bytes)
  | 0, _, _, b => .error (.fault (.before .expectedValue b))
  | fuel + 1, first, d, b => do
    let (more, b) ← stopAt (moreMembers first b)
    if more then
      let (key, b) ← stopAt (stringText (b.drop 1))
      match members.find? (·.answersTo key) with
      | none => objectMembers members fuel false d (← stopAt (colon b >>= skipValue))
      | some m =>
        if d.seen.contains m.name then .error (.mismatch (.duplicate m.name) b)
        else
          let (update, b) ← stopAt (colon b >>= m.read)
          objectMembers members fuel false (d.put m.name update) b
    else return (d, b)

/-- The members of a record given as a list, in their order. Of those that the list does not reach,
the required ones are missed. -/
def listMembers {σ : Type} (expected : String) :
    List (Member σ) → Nat → Bool → σ → Bytes → Except Stop (σ × Bytes)
  | [], _, _, s, b => .ok (s, b)
  | m :: ms, count, first, s, b => do
    let (more, b) ← stopAt (moreElements first b)
    if more then
      let (update, b) ← stopAt (m.read b)
      listMembers expected ms (count + 1) false (update s) b
    else if m.required then .error (.mismatch (.length count expected) b)
    else listMembers expected ms (count + 1) first s b

/-- The record of an object's members. -/
def fromObject {σ : Type} (start : σ) (members : List (Member σ)) (b : Bytes) :
    Except Stop (σ × Bytes) := do
  let (d, rest) ← objectMembers members (b.length + 1) true { value := start } b
  match firstMissing members d.seen with
  | some name => .error (.mismatch (.missing name) rest)
  | none => return (d.value, rest)

/-- Where the reader comes to when it looks for the end of an object. -/
def placeAtEndObject (b : Bytes) : Bytes :=
  match skipBlank b with
  | 0x7D :: r => r
  | r => r

/-- Where the reader comes to when it looks for the end of a list. -/
def placeAtEndList (b : Bytes) : Bytes :=
  match skipBlank b with
  | 0x5D :: r => r
  | 0x2C :: r => skipBlank r
  | r => r

/-- Goes over the record's end, and gives a mismatch of the whole record its place. -/
def close {σ : Type} (finish : Bytes → Except Fault Bytes) (place : Bytes → Bytes) :
    Except Stop (σ × Bytes) → Except Fault (σ × Bytes)
  | .ok (s, rest) => do return (s, ← finish rest)
  | .error (.fault f) => .error f
  | .error (.mismatch m rest) => .error (.before (.mismatch m) (place rest))

/-- A record, as an object or as a list of its members' values. -/
def record {σ : Type} (title : String) (start : σ) (members : List (Member σ)) : Reader σ :=
  fun b => do
    match ← value b with
    | c :: r =>
      if c = 0x7B then close endObject placeAtEndObject (fromObject start members r)
      else if c = 0x5B then
        close endList placeAtEndList
          (listMembers (elementsOf title members.length) members 0 true start r)
      else .error (unexpected ("struct " ++ title) (c :: r))
    | [] => .error (unexpected ("struct " ++ title) [])

/-! ## Whole texts -/

/-- Reads a text that holds one value and nothing after it. -/
def parse {α : Type} (read : Reader α) (b : Bytes) : Except Error α :=
  match read b with
  | .error f => .error (f.locate b)
  | .ok (a, rest) =>
    match skipBlank rest with
    | [] => .ok a
    | r => .error (Fault.locate b (.atHead .trailingCharacters r))

end PbxAgent.Json
