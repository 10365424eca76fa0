/-!
# Double precision numbers

The non-negative doubles as `m * 2 ^ q`, with rounding to nearest, ties to even, in exact integer
arithmetic; and from a double back to the shortest decimal that names it.
-/

namespace PbxAgent.Decimal

/-- A finite magnitude `mantissa * 2 ^ exponent`. -/
structure Magnitude where
  mantissa : Nat
  exponent : Int
  deriving DecidableEq, Repr

/-- A double. -/
inductive Binary64 where
  | finite (negative : Bool) (x : Magnitude)
  | infinite (negative : Bool)
  | nan
  deriving DecidableEq, Repr

/-- Digits of a decimal `digits * 10 ^ exponent`. -/
structure Digits where
  digits : Nat
  exponent : Int
  deriving DecidableEq, Repr

/-! ## Rounding -/

/-- The quotient rounded to the nearest number, a tie to the even one. -/
def roundDiv (num den : Nat) : Nat :=
  let k := num / den
  let r := 2 * (num % den)
  if r < den then k
  else if den < r then k + 1
  else if k % 2 = 0 then k else k + 1

/-- Bits that a number takes up. -/
def bitLength (n : Nat) : Nat :=
  if n = 0 then 0 else Nat.log2 n + 1

namespace Magnitude

def zero : Magnitude := ⟨0, -1074⟩

/-- `num * 2 ^ (-q) / den` as a quotient of two numbers. -/
def scale (num den : Nat) (q : Int) : Nat × Nat :=
  if q < 0 then (num <<< (-q).toNat, den) else (num, den <<< q.toNat)

/-- The double nearest to `num / den`; none if it is past the largest one. -/
def round (num den : Nat) : Option Magnitude :=
  if num = 0 then some zero
  else
    let low := max ((bitLength num : Int) - bitLength den - 53) (-1074)
    let (n, d) := scale num den low
    let q := if n < d <<< 53 then low else low + 1
    let (n, d) := scale num den q
    let m := roundDiv n d
    let x : Magnitude := if m = 1 <<< 53 then ⟨1 <<< 52, q + 1⟩ else ⟨m, q⟩
    if x.exponent ≤ 971 then some x else none

/-- The double as a quotient. -/
def ratio (x : Magnitude) : Nat × Nat :=
  if x.exponent < 0 then (x.mantissa, 1 <<< (-x.exponent).toNat)
  else (x.mantissa <<< x.exponent.toNat, 1)

/-- The rounded product of two doubles. -/
def mul (x y : Magnitude) : Option Magnitude :=
  round (x.ratio.1 * y.ratio.1) (x.ratio.2 * y.ratio.2)

/-- The rounded quotient of two doubles, the second not zero. -/
def div (x y : Magnitude) : Option Magnitude :=
  round (x.ratio.1 * y.ratio.2) (x.ratio.2 * y.ratio.1)

/-- The double nearest to `digits * 10 ^ exponent`. Exponents that put the value past either end
of the doubles are not worked out. -/
def ofDecimal (x : Digits) : Option Magnitude :=
  let places : Int := x.exponent + (toString x.digits).length
  if x.digits = 0 ∨ places < -330 then some zero
  else if 310 < places then none
  else if x.exponent < 0 then round x.digits (.pow 10 (-x.exponent).toNat)
  else round (x.digits * .pow 10 x.exponent.toNat) 1

/-! ## The shortest decimal -/

/-- Whether `c * 10 ^ e` is among the reals that round to `x`: with the double's unit as measure,
half a unit away at most, and a quarter below a power of two. The ends belong to it if the mantissa
is even. -/
def holds (x : Magnitude) (c : Nat) (e : Int) : Bool :=
  -- all in quarters of the unit, over a common denominator
  let (num, den) := if e < 0 then (c, .pow 10 (-e).toNat) else (c * .pow 10 e.toNat, 1)
  let (num, den) := scale num den (x.exponent - 2)
  let high := 4 * x.mantissa + 2
  let low := if x.mantissa = 1 <<< 52 ∧ -1074 < x.exponent then 4 * x.mantissa - 1
    else 4 * x.mantissa - 2
  if x.mantissa % 2 = 0 then low * den ≤ num && num ≤ high * den
  else low * den < num && num < high * den

/-- The power of ten below which a number lies, found from its decimal length. -/
def magnitude (num den : Nat) : Int :=
  let guess : Int := (toString num).length - (toString den).length
  -- `10 ^ (guess - 1) < num / den < 10 ^ (guess + 1)`
  if guess < 0 then
    if num * .pow 10 (-guess).toNat < den then guess else guess + 1
  else if num < den * .pow 10 guess.toNat then guess else guess + 1

/-- The best decimal of a double with `n` digits, if one rounds to it: of the two neighbours on the
grid of such decimals the nearer one, on a tie the even one. -/
def nearest? (x : Magnitude) (n : Nat) : Option Digits :=
  let (num, den) := x.ratio
  let e := magnitude num den - n
  let (a, b) := if e < 0 then (num * .pow 10 (-e).toNat, den) else (num, den * .pow 10 e.toNat)
  let below := a / b
  let near := roundDiv a b
  let far := if near = below then below + 1 else below
  if x.holds near e then some ⟨near, e⟩
  else if x.holds far e then some ⟨far, e⟩
  else none

/-- Without zeros at the end of the digits. -/
def trim : Nat → Digits → Digits
  | 0, d => d
  | fuel + 1, d => if d.digits ≠ 0 ∧ d.digits % 10 = 0 then trim fuel ⟨d.digits / 10, d.exponent + 1⟩
    else d

/-- The fewest digits that round to the double; seventeen always do. -/
def shortest (x : Magnitude) : Digits :=
  if x.mantissa = 0 then ⟨0, 0⟩
  else trim 20 (((List.range 17).findSome? fun n => x.nearest? (n + 1)).getD ⟨0, 0⟩)

end Magnitude

end PbxAgent.Decimal
