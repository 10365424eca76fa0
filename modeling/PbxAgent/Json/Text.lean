import PbxAgent.Json.Fault
import PbxAgent.Text.Utf8

/-!
# Strings in JSON text

Reading a string undoes its escapes and checks that the outcome is well-formed UTF-8. Where a value
is skipped, a string is only gone through to its end.
-/

namespace PbxAgent.Json

/-! ## Characters of the syntax -/

def isBlank (c : UInt8) : Bool :=
  c = 0x20 || c = 0x09 || c = 0x0A || c = 0x0D

/-- The text from its first byte on that is not blank. -/
def skipBlank (b : Bytes) : Bytes :=
  b.dropWhile isBlank

def quote : UInt8 := 0x22
def backslash : UInt8 := 0x5C

/-! ## Escapes -/

/-- What a one-letter escape stands for. -/
def simpleEscape? (c : UInt8) : Option UInt8 :=
  if c = quote ∨ c = backslash ∨ c = 0x2F then some c
  else if c = 0x62 then some 0x08
  else if c = 0x66 then some 0x0C
  else if c = 0x6E then some 0x0A
  else if c = 0x72 then some 0x0D
  else if c = 0x74 then some 0x09
  else none

/-- The number that four hexadecimal digits stand for. -/
def hexUnit? (a b c d : UInt8) : Option Nat := do
  return (((← Bytes.hexDigit? a) * 16 + (← Bytes.hexDigit? b)) * 16 + (← Bytes.hexDigit? c)) * 16
    + (← Bytes.hexDigit? d)

def isLeadSurrogate (n : Nat) : Bool := 0xD800 ≤ n && n ≤ 0xDBFF
def isTrailSurrogate (n : Nat) : Bool := 0xDC00 ≤ n && n ≤ 0xDFFF

/-- The scalar of a surrogate pair. -/
def joinSurrogates (lead trail : Nat) : Char :=
  Char.ofNat (0x10000 + (lead - 0xD800) * 0x400 + (trail - 0xDC00))

/-- Puts the bytes of a scalar in front of bytes in reverse order. -/
def pushChar (c : Char) (done : Bytes) : Bytes :=
  (Text.Utf8.encodeChar c).reverse ++ done

/-! ## Reading -/

/-- The bytes that a string stands for, from behind its opening quote to behind its closing one;
`done` holds those read already, last first. A surrogate must come as one half of a pair. -/
def stringBytes (done : Bytes) : Reader Bytes
  | [] => .error (.before .eofInString [])
  | c :: r =>
    if c = quote then .ok (done.reverse, r)
    else if c < 0x20 then .error (.before .controlCharacter r)
    else if c ≠ backslash then stringBytes (c :: done) r
    else match r with
    | [] => .error (.before .eofInString [])
    | e :: r =>
      if e ≠ 0x75 then
        match simpleEscape? e with
        | some b => stringBytes (b :: done) r
        | none => .error (.before .invalidEscape r)
      else match r with
      | u₃ :: u₂ :: u₁ :: u₀ :: r =>
        match hexUnit? u₃ u₂ u₁ u₀ with
        | none => .error (.before .invalidEscape r)
        | some n =>
          if isTrailSurrogate n then .error (.before .loneSurrogate r)
          else if !isLeadSurrogate n then stringBytes (pushChar (Char.ofNat n) done) r
          else match r with
          | [] => .error (.before .eofInString [])
          | x :: r =>
            if x ≠ backslash then .error (.before .unexpectedEndOfEscape r)
            else match r with
            | [] => .error (.before .eofInString [])
            | y :: r =>
              if y ≠ 0x75 then .error (.before .unexpectedEndOfEscape r)
              else match r with
              | v₃ :: v₂ :: v₁ :: v₀ :: r =>
                match hexUnit? v₃ v₂ v₁ v₀ with
                | none => .error (.before .invalidEscape r)
                | some k =>
                  if isTrailSurrogate k then stringBytes (pushChar (joinSurrogates n k) done) r
                  else .error (.before .loneSurrogate r)
              | _ => .error (.before .eofInString [])
      | _ => .error (.before .eofInString [])

/-- The text of a string, from behind its opening quote on. The place of a fault in its encoding is
counted back from the end of the string by the bytes it stands for from the ill-formed part on. -/
def stringText : Reader String := fun b => do
  let (content, rest) ← stringBytes [] b
  match Text.Utf8.decode? content with
  | some s => .ok (s, rest)
  | none =>
    .error ⟨.invalidUnicode, rest.length + (content.length - Text.Utf8.validLength content)⟩

/-- Goes through a string, from behind its opening quote on, without looking at what it says. -/
def skipString : Bytes → Except Fault Bytes
  | [] => .error (.before .eofInString [])
  | c :: r =>
    if c = quote then .ok r
    else if c < 0x20 then .error (.before .controlCharacter (c :: r))
    else if c ≠ backslash then skipString r
    else match r with
    | [] => .error (.before .eofInString [])
    | e :: r =>
      if e ≠ 0x75 then
        match simpleEscape? e with
        | some _ => skipString r
        | none => .error (.before .invalidEscape r)
      else match r with
      | a :: b :: c :: d :: r =>
        match hexUnit? a b c d with
        | some _ => skipString r
        | none => .error (.before .invalidEscape r)
      | _ => .error (.before .eofInString [])

end PbxAgent.Json
