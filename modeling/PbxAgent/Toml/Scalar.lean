import PbxAgent.Toml.Quoted
import PbxAgent.Toml.Value

/-!
# Numbers, dates and flags of TOML

Whole numbers have 64 bits and a sign, other numbers are doubles. Of a date or time only its form is
checked.
-/

namespace PbxAgent.Toml

open Decimal

/-! ## Numbers -/

/-- Digits to the end of a run, single underscores between them left out. -/
def moreDigits (isDigit : Char → Bool) : Scanner (List Char)
  | [] => some ([], [])
  | '_' :: c :: r =>
    if isDigit c then (moreDigits isDigit r).map fun (ds, rest) => (c :: ds, rest) else none
  | c :: r =>
    if isDigit c then (moreDigits isDigit r).map fun (ds, rest) => (c :: ds, rest)
    else if c = '_' then none
    else some ([], c :: r)

/-- A run of digits that is not empty. -/
def digitRun (isDigit : Char → Bool) : Scanner (List Char)
  | c :: r =>
    if isDigit c then (moreDigits isDigit r).map fun (ds, rest) => (c :: ds, rest) else none
  | [] => none

/-- Whether there is a minus in front, and what follows the sign. -/
def takeSign : List Char → Bool × List Char
  | '-' :: r => (true, r)
  | '+' :: r => (false, r)
  | cs => (false, cs)

/-- Decimal digits, of which a zero in front stands alone. -/
def wholeDigits : Scanner (List Char)
  | '0' :: r => some (['0'], r)
  | cs => digitRun Char.isDigit cs

/-- The number that digits stand for. -/
def digitsValue (base : Nat) (ds : List Char) : Nat :=
  ds.foldl (fun n c => n * base + Text.Hex.value c) 0

/-- The exponent of a float, or zero where there is none. -/
def exponentPart : Scanner Int
  | [] => some (0, [])
  | c :: r =>
    if c = 'e' || c = 'E' then do
      let (negative, r) := takeSign r
      let (ds, r) ← digitRun Char.isDigit r
      let n : Int := digitsValue 10 ds
      return (if negative then -n else n, r)
    else some (0, c :: r)

/-- The double of a sign, digits and an exponent. Past the largest one there is only the negative
infinity. -/
def floatValue (negative : Bool) (x : Digits) : Option Value :=
  match Magnitude.ofDecimal x with
  | some m => some (.float (.finite negative m))
  | none => if negative then some (.float (.infinite true)) else none

/-- A number with a fraction or an exponent. -/
def float (cs : List Char) : Option (Value × List Char) := do
  let (negative, cs) := takeSign cs
  let (whole, r) ← wholeDigits cs
  match r with
  | '.' :: r =>
    let (fraction, r) ← digitRun Char.isDigit r
    let (e, r) ← exponentPart r
    let x : Digits := ⟨digitsValue 10 (whole ++ fraction), e - fraction.length⟩
    return (← floatValue negative x, r)
  | c :: _ =>
    if c = 'e' || c = 'E' then
      let (e, r) ← exponentPart r
      return (← floatValue negative ⟨digitsValue 10 whole, e⟩, r)
    else none
  | [] => none

/-- Infinity, and what is no number. -/
def specialFloat (cs : List Char) : Option (Value × List Char) :=
  match takeSign cs with
  | (negative, 'i' :: 'n' :: 'f' :: r) => some (.float (.infinite negative), r)
  | (_, 'n' :: 'a' :: 'n' :: r) => some (.float .nan, r)
  | _ => none

/-- A number in another base than ten, from behind its mark. -/
def basedInteger (base : Nat) (isDigit : Char → Bool) (cs : List Char) :
    Option (Value × List Char) := do
  let (ds, r) ← digitRun isDigit cs
  let n := digitsValue base ds
  if n ≤ Int64.maxValue.toInt then return (.integer n, r) else none

/-- A whole number. -/
def integer : Scanner Value
  | '0' :: 'x' :: r => basedInteger 16 Text.Hex.isDigit r
  | '0' :: 'o' :: r => basedInteger 8 (fun c => '0' ≤ c && c ≤ '7') r
  | '0' :: 'b' :: r => basedInteger 2 (fun c => c = '0' || c = '1') r
  | cs => do
    let (negative, cs) := takeSign cs
    let (ds, r) ← wholeDigits cs
    let n : Int := digitsValue 10 ds
    let i := if negative then -n else n
    if Int64.minValue.toInt ≤ i ∧ i ≤ Int64.maxValue.toInt then return (.integer i, r) else none

/-! ## Dates and times -/

/-- A number of just so many digits, in a range. -/
def fixedDigits (count low high : Nat) (cs : List Char) : Option (Nat × List Char) :=
  let ds := cs.take count
  let n := digitsValue 10 ds
  if ds.length = count ∧ ds.all Char.isDigit ∧ low ≤ n ∧ n ≤ high then some (n, cs.drop count)
  else none

/-- What follows a character. -/
def expect (c : Char) : List Char → Option (List Char)
  | d :: r => if d = c then some r else none
  | [] => none

def isLeapYear (year : Nat) : Bool :=
  year % 4 = 0 && (year % 100 ≠ 0 || year % 400 = 0)

def daysInMonth (year month : Nat) : Nat :=
  if month = 2 then if isLeapYear year then 29 else 28
  else if month = 4 ∨ month = 6 ∨ month = 9 ∨ month = 11 then 30
  else 31

/-- What follows a date. -/
def date (cs : List Char) : Option (List Char) := do
  let (year, r) ← fixedDigits 4 0 9999 cs
  let (month, r) ← fixedDigits 2 1 12 (← expect '-' r)
  let (_, r) ← fixedDigits 2 1 (daysInMonth year month) (← expect '-' r)
  return r

/-- What follows a fraction of a second, if there is one. -/
def secondFraction : List Char → Option (List Char)
  | '.' :: r => if (r.head?.map Char.isDigit).getD false then some (r.dropWhile Char.isDigit) else none
  | cs => some cs

/-- What follows a time of day; a minute may have a leap second. -/
def time (cs : List Char) : Option (List Char) := do
  let (_, r) ← fixedDigits 2 0 23 cs
  let (_, r) ← fixedDigits 2 0 59 (← expect ':' r)
  let (_, r) ← fixedDigits 2 0 60 (← expect ':' r)
  secondFraction r

/-- What follows an offset from universal time, if there is one. -/
def offset : List Char → Option (List Char)
  | [] => some []
  | c :: r =>
    if c = 'Z' || c = 'z' then some r
    else if c = '+' || c = '-' then do
      let (_, r) ← fixedDigits 2 0 23 r
      let (_, r) ← fixedDigits 2 0 59 (← expect ':' r)
      return r
    else some (c :: r)

/-- What follows the time that may come with a date, behind a letter or a blank. -/
def timeOfDate : List Char → Option (List Char)
  | c :: r => if c = 'T' || c = 't' || c = ' ' then do offset (← time r) else none
  | [] => none

/-- A date, a time, or both. -/
def dateTime (cs : List Char) : Option (Value × List Char) :=
  match date cs with
  | some r => some (.dateTime, (timeOfDate r).getD r)
  | none => (time cs).map fun r => (.dateTime, r)

/-! ## Scalars -/

/-- A value that holds no others. -/
def scalar (cs : List Char) : Option (Value × List Char) :=
  match cs with
  | 't' :: 'r' :: 'u' :: 'e' :: r => some (.flag true, r)
  | 'f' :: 'a' :: 'l' :: 's' :: 'e' :: r => some (.flag false, r)
  | '"' :: _ => (string cs).map fun (s, r) => (.text s, r)
  | '\'' :: _ => (string cs).map fun (s, r) => (.text s, r)
  | _ => (dateTime cs).or ((float cs).or ((specialFloat cs).or (integer cs)))

end PbxAgent.Toml
