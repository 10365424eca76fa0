import PbxAgent.Json.Text

/-!
# Numbers in JSON text

A number is read only to tell what stood in the place of something else. Whole numbers of up to 64
bits are kept as they are. All others become doubles, from the digits that fit 64 bits and a power
of ten, one rounding after the other.
-/

namespace PbxAgent.Json

open Decimal Schema

/-- The digits at the front of a text, as far as the number they make with `n` before them fits
64 bits, and the text after them. -/
def fittingDigits (n : Nat) : Bytes → Nat × Nat × Bytes
  | [] => (n, 0, [])
  | c :: r =>
    match Bytes.digit? c with
    | none => (n, 0, c :: r)
    | some d =>
      if n * 10 + d < UInt64.size then
        let (m, count, rest) := fittingDigits (n * 10 + d) r
        (m, count + 1, rest)
      else (n, 0, c :: r)

def isDigit (c : UInt8) : Bool := (Bytes.digit? c).isSome

/-- The number of digits at the front of a text, and the text after them. -/
def countDigits (b : Bytes) : Nat × Bytes :=
  ((b.takeWhile isDigit).length, b.dropWhile isDigit)

/-! ## Doubles from their parts -/

/-- `x * 10 ^ exponent`. Powers of ten past the largest one are divided off in steps of it, at most
`steps` times; four steps bring any number down to zero. -/
def scaleByTen (x : Magnitude) (exponent : Int) : Nat → Option Magnitude
  | 0 => some Magnitude.zero
  | steps + 1 =>
    if exponent.natAbs ≤ 308 then do
      let power ← Magnitude.ofDecimal ⟨1, exponent.natAbs⟩
      if 0 ≤ exponent then x.mul power else x.div power
    else if x.mantissa = 0 then some x
    else if 0 ≤ exponent then none
    else do
      let power ← Magnitude.ofDecimal ⟨1, 308⟩
      scaleByTen (← x.div power) (exponent + 308) steps

/-- The double of a sign, digits and an exponent, at the text `rest`. -/
def floatOf (negative : Bool) (digits : Nat) (exponent : Int) (rest : Bytes) :
    Except Fault (Found × Bytes) :=
  match (Magnitude.round digits 1).bind fun x => scaleByTen x exponent 5 with
  | some x => .ok (.float (.finite negative x), rest)
  | none => .error (.before .numberOutOfRange rest)

/-- The value of the digits of an exponent, as far as it fits 31 bits, the number of digits past
that, and the text after them. -/
def exponentDigits (n : Nat) : Bytes → Nat × Option Bytes × Bytes
  | [] => (n, none, [])
  | c :: r =>
    match Bytes.digit? c with
    | none => (n, none, c :: r)
    | some d =>
      if n * 10 + d ≤ Int32.maxValue.toInt then exponentDigits (n * 10 + d) r else (n, some r, r)

/-- A number from behind the letter that starts its exponent. -/
def exponentPart (negative : Bool) (digits : Nat) (start : Int) (b : Bytes) :
    Except Fault (Found × Bytes) :=
  let (down, b) := match b with
    | 0x2B :: r => (false, r)
    | 0x2D :: r => (true, r)
    | _ => (false, b)
  match b with
  | [] => .error (.before .eofInValue [])
  | c :: r =>
    match Bytes.digit? c with
    | none => .error (.before .invalidNumber r)
    | some d =>
      match exponentDigits d r with
      | (n, none, rest) => floatOf negative digits (if down then start - n else start + n) rest
      | (_, some past, _) =>
        if digits ≠ 0 ∧ !down then .error (.before .numberOutOfRange past)
        else .ok (.float (.finite negative Magnitude.zero), past.dropWhile isDigit)

/-- A number from behind its point on: digits that no longer fit are passed over. -/
def fractionPart (negative : Bool) (digits : Nat) (start : Int) (b : Bytes) :
    Except Fault (Found × Bytes) :=
  let (m, count, rest) := fittingDigits digits b
  let exponent := start - count
  let after := rest.dropWhile isDigit
  if count = 0 ∧ after.length = rest.length then
    match rest with
    | [] => .error (.before .eofInValue [])
    | _ => .error (.atHead .invalidNumber rest)
  else match after with
  | c :: r =>
    if c = 0x65 ∨ c = 0x45 then exponentPart negative m exponent r
    else floatOf negative m exponent after
  | [] => floatOf negative m exponent []

/-- What digits without point and exponent stand for. -/
def wholeNumber (negative : Bool) (n : Nat) : Found :=
  if !negative then .integer n
  else if 0 < n ∧ Int64.minValue.toInt ≤ -n then .integer (-n)
  else .float (.finite true ((Magnitude.round n 1).getD Magnitude.zero))

/-- A number from behind its sign. -/
def number (negative : Bool) (b : Bytes) : Except Fault (Found × Bytes) :=
  match b with
  | [] => .error (.before .eofInValue [])
  | c :: r =>
    match Bytes.digit? c with
    | none => .error (.before .invalidNumber r)
    | some 0 =>
      if (r.head?.map isDigit).getD false then .error (.atHead .invalidNumber r)
      else afterWhole 0 0 r
    | some d =>
      let (n, _, rest) := fittingDigits d r
      let (dropped, rest) := countDigits rest
      afterWhole n dropped rest
where
  /-- What comes after the digits before the point, `dropped` of which did not fit. -/
  afterWhole (n dropped : Nat) (rest : Bytes) : Except Fault (Found × Bytes) :=
    match rest with
    | 0x2E :: r => fractionPart negative n dropped r
    | 0x65 :: r => exponentPart negative n dropped r
    | 0x45 :: r => exponentPart negative n dropped r
    | _ => if dropped = 0 then .ok (wholeNumber negative n, rest) else floatOf negative n dropped rest

/-! ## Passing over numbers -/

/-- Goes through a number from behind the letter that starts its exponent. -/
def skipExponent (b : Bytes) : Except Fault Bytes :=
  let b := match b with
    | 0x2B :: r => r
    | 0x2D :: r => r
    | _ => b
  match b with
  | [] => .error (.before .invalidNumber [])
  | c :: r => if isDigit c then .ok (r.dropWhile isDigit) else .error (.before .invalidNumber r)

/-- Goes through a number from behind its sign. -/
def skipNumber (b : Bytes) : Except Fault Bytes := do
  let rest ← whole b
  match rest with
  | 0x2E :: r =>
    let (count, rest) := countDigits r
    if count = 0 then .error (.atHead .invalidNumber rest)
    else match rest with
    | c :: r => if c = 0x65 ∨ c = 0x45 then skipExponent r else .ok rest
    | [] => .ok []
  | 0x65 :: r => skipExponent r
  | 0x45 :: r => skipExponent r
  | _ => .ok rest
where
  /-- The digits before the point: a zero stands alone. -/
  whole : Bytes → Except Fault Bytes
    | [] => .error (.before .invalidNumber [])
    | c :: r =>
      match Bytes.digit? c with
      | none => .error (.before .invalidNumber r)
      | some 0 =>
        if (r.head?.map isDigit).getD false then .error (.atHead .invalidNumber r) else .ok r
      | some _ => .ok (r.dropWhile isDigit)

end PbxAgent.Json
