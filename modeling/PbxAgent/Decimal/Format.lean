import PbxAgent.Decimal.Binary64

/-!
# Decimal text of doubles

How the shortest decimal of a double is laid out.
-/

namespace PbxAgent.Decimal

/-- Digits with the point `exponent` places from their end; always with a digit on either side. -/
def positional (x : Digits) : String :=
  let ds := toString x.digits
  let shift := x.exponent
  if 0 ≤ shift then ds ++ String.ofList (List.replicate shift.toNat '0') ++ ".0"
  else
    let places := (-shift).toNat
    let padded := String.ofList (List.replicate (places + 1 - ds.length) '0') ++ ds
    let cut := padded.length - places
    String.ofList (padded.toList.take cut) ++ "." ++ String.ofList (padded.toList.drop cut)

/-- One digit, the point and the others, with a signed exponent of at least two digits. -/
def scientific (x : Digits) : String :=
  let ds := (toString x.digits).toList
  let e : Int := x.exponent + ds.length - 1
  let digits := match ds with
    | [] => ""
    | [d] => String.singleton d
    | d :: r => String.ofList (d :: '.' :: r)
  let size := toString e.natAbs
  digits ++ (if e < 0 then "e-" else "e+") ++ (if size.length < 2 then "0" ++ size else size)

/-- A sign where there is one, and the text of the magnitude. -/
def signed (negative : Bool) (text : String) : String :=
  if negative then "-" ++ text else text

namespace Binary64

/-- Positional from a hundred-thousandth up to, and not including, ten to the sixteenth;
scientific otherwise. -/
def compactText : Binary64 → String
  | finite s x =>
    let d := x.shortest
    let e : Int := d.exponent + (toString d.digits).length - 1
    signed s (if x.mantissa = 0 ∨ (-5 ≤ e ∧ e ≤ 15) then positional d else scientific d)
  | infinite s => signed s "inf"
  | nan => "NaN"

/-- Positional throughout. -/
def plainText : Binary64 → String
  | finite s x => signed s (positional x.shortest)
  | infinite s => signed s "inf"
  | nan => "NaN"

end Binary64

end PbxAgent.Decimal
