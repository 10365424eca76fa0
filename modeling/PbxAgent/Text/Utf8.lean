import PbxAgent.Bytes

/-!
# UTF-8

One reading of a byte string serves both ways of decoding. `scan` cuts it into scalars and
ill-formed parts, each of the latter as long as it could still have begun a scalar; strict
decoding refuses any ill-formed part, lossy decoding puts the replacement character in its place.
-/

namespace PbxAgent.Text.Utf8

/-! ## Encoding -/

/-- The bytes of one scalar. -/
def encodeChar (c : Char) : Bytes :=
  let n := c.toNat
  if n < 0x80 then [UInt8.ofNat n]
  else if n < 0x800 then [UInt8.ofNat (0xC0 + n / 0x40), UInt8.ofNat (0x80 + n % 0x40)]
  else if n < 0x10000 then
    [UInt8.ofNat (0xE0 + n / 0x1000), UInt8.ofNat (0x80 + n / 0x40 % 0x40),
      UInt8.ofNat (0x80 + n % 0x40)]
  else
    [UInt8.ofNat (0xF0 + n / 0x40000), UInt8.ofNat (0x80 + n / 0x1000 % 0x40),
      UInt8.ofNat (0x80 + n / 0x40 % 0x40), UInt8.ofNat (0x80 + n % 0x40)]

/-- The bytes of a sequence of scalars. -/
def encodeChars (cs : List Char) : Bytes :=
  cs.flatMap encodeChar

/-- The bytes of a text. -/
def encode (s : String) : Bytes :=
  encodeChars s.toList

/-! ## Decoding -/

/-- The second bytes that may follow a lead byte; `none` for a byte that leads nothing longer
than itself. Overlong forms, surrogates and numbers past the last scalar are excluded here. -/
def secondRange (lead : UInt8) : Option (UInt8 × UInt8) :=
  if lead < 0xC2 then none
  else if lead = 0xE0 then some (0xA0, 0xBF)
  else if lead = 0xED then some (0x80, 0x9F)
  else if lead = 0xF0 then some (0x90, 0xBF)
  else if lead = 0xF4 then some (0x80, 0x8F)
  else if lead ≤ 0xF4 then some (0x80, 0xBF)
  else none

/-- Bytes that continue a scalar. -/
def isTail (c : UInt8) : Bool :=
  0x80 ≤ c && c ≤ 0xBF

/-- The low six bits that a continuing byte carries. -/
def tailBits (c : UInt8) : Nat :=
  c.toNat % 0x40

/-- The scalars of a byte string, with `none` for each maximal ill-formed part. -/
def scan : Bytes → List (Option Char)
  | [] => []
  | a :: r =>
    if a < 0x80 then some (Char.ofNat a.toNat) :: scan r
    else match secondRange a with
    | none => none :: scan r
    | some (lo, hi) =>
      match r with
      | [] => [none]
      | b :: r₁ =>
        if ¬ (lo ≤ b ∧ b ≤ hi) then none :: scan (b :: r₁)
        else if a < 0xE0 then
          some (Char.ofNat ((a.toNat - 0xC0) * 0x40 + tailBits b)) :: scan r₁
        else match r₁ with
        | [] => [none]
        | c :: r₂ =>
          if !isTail c then none :: scan (c :: r₂)
          else if a < 0xF0 then
            some (Char.ofNat ((a.toNat - 0xE0) * 0x1000 + tailBits b * 0x40 + tailBits c))
              :: scan r₂
          else match r₂ with
          | [] => [none]
          | d :: r₃ =>
            if !isTail d then none :: scan (d :: r₃)
            else
              some (Char.ofNat ((a.toNat - 0xF0) * 0x40000 + tailBits b * 0x1000
                + tailBits c * 0x40 + tailBits d)) :: scan r₃

/-- The scalars of well-formed bytes. -/
def decodeChars? (b : Bytes) : Option (List Char) :=
  (scan b).mapM id

/-- The text of well-formed bytes. -/
def decode? (b : Bytes) : Option String :=
  (decodeChars? b).map String.ofList

/-- Whether the bytes are well formed. -/
def isValid (b : Bytes) : Bool :=
  (scan b).all Option.isSome

/-- The number of bytes before the first ill-formed part. -/
def validLength (b : Bytes) : Nat :=
  (encodeChars (((scan b).takeWhile Option.isSome).filterMap id)).length

/-- Any bytes as text, a replacement character standing for each ill-formed part. -/
def decodeLossy (b : Bytes) : String :=
  String.ofList ((scan b).map (·.getD '\uFFFD'))

end PbxAgent.Text.Utf8
