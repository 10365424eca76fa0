import PbxAgent.Bytes

/-!
# Chunked bodies

A body in pieces, each behind a line with its size in hexadecimal and ending in a line of its own;
a size of zero ends the body. What a size line says behind a semicolon is passed over.
-/

namespace PbxAgent.Http.Chunked

/-- Why bytes do not begin with a chunked body. -/
inductive ChunkError where
  /-- They end within a size line. -/
  | incomplete
  | invalidSize
  /-- They end within the data of a chunk. -/
  | truncated (size available : Nat)
  | noLineEnd
  deriving DecidableEq, Repr

def ChunkError.message : ChunkError → String
  | incomplete => "chunked body ends early"
  | invalidSize => "invalid chunk size"
  | truncated size available => s!"chunk of {size} bytes truncated at {available}"
  | noLineEnd => "chunk data not followed by CRLF"

/-! ## Size lines -/

/-- Parts of a size line. -/
inductive Part where
  | digits
  | blanks
  | extension
  deriving DecidableEq, Repr

/-- The most digits of a size. -/
def maxDigits : Nat := 16

/-- Reads a size line from within: `count` digits so far make up `size`. -/
def sizeFrom (part : Part) (size count : Nat) : Bytes → Except ChunkError (Nat × Bytes)
  | [] => .error .incomplete
  | c :: r =>
    if c = 0x0D then
      match r with
      | [] => .error .incomplete
      | d :: r => if d = 0x0A then .ok (size, r) else .error .invalidSize
    else match part with
    | .extension => sizeFrom .extension size count r
    | .blanks =>
      if c = 0x3B then sizeFrom .extension size count r
      else if c = 0x20 ∨ c = 0x09 then sizeFrom .blanks size count r
      else .error .invalidSize
    | .digits =>
      if c = 0x3B then sizeFrom .extension size count r
      else if c = 0x20 ∨ c = 0x09 then sizeFrom .blanks size count r
      else match Bytes.hexDigit? c with
      | none => .error .invalidSize
      | some d =>
        if count < maxDigits then sizeFrom .digits (size * 16 + d) (count + 1) r
        else .error .invalidSize

/-- Reads a size line. A line without digits says zero. -/
def sizeLine (b : Bytes) : Except ChunkError (Nat × Bytes) :=
  sizeFrom .digits 0 0 b

theorem length_sizeFrom {part : Part} {size count n : Nat} {b rest : Bytes}
    (h : sizeFrom part size count b = .ok (n, rest)) : rest.length < b.length := by
  fun_induction sizeFrom part size count b <;> grind

theorem length_sizeLine {n : Nat} {b rest : Bytes} (h : sizeLine b = .ok (n, rest)) :
    rest.length < b.length :=
  length_sizeFrom h

/-! ## Bodies -/

/-- The data of a chunked body; what follows the last size line is left alone. -/
def decode (b : Bytes) : Except ChunkError Bytes :=
  match _read : sizeLine b with
  | .error e => .error e
  | .ok (size, rest) =>
    if size = 0 then .ok []
    else match _cut : rest.drop size with
    | c :: d :: more =>
      if c = 0x0D ∧ d = 0x0A then
        match decode more with
        | .ok data => .ok (rest.take size ++ data)
        | .error e => .error e
      else .error .noLineEnd
    | _ => .error (.truncated size rest.length)
termination_by b.length
decreasing_by
  have h₁ := length_sizeLine _read
  have h₂ := congrArg List.length _cut
  simp at h₂
  omega

end PbxAgent.Http.Chunked
