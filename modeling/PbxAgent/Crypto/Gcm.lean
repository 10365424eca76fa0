import PbxAgent.Crypto.Aes256

/-!
# Galois/counter mode

Authenticated encryption as in NIST SP 800-38D, with 96-bit nonces, full tags and no associated
data. The message is added to a stream that key and nonce fix; the tag is a function of key, nonce
and ciphertext, so opening is sealing run back and checked.
-/

namespace PbxAgent.Crypto.Gcm

open Aes256 (Block Key)

/-- A nonce of twelve bytes. -/
abbrev Nonce := Vector UInt8 12

/-! ## The hash over the field of 2^128 elements -/

/-- An element of the field, its first coefficient in the highest bit of `hi`. -/
structure Element where
  hi : UInt64
  lo : UInt64

namespace Element

def zero : Element := ⟨0, 0⟩

def add (x y : Element) : Element :=
  ⟨x.hi ^^^ y.hi, x.lo ^^^ y.lo⟩

/-- The element times the indeterminate. -/
def shift (x : Element) : Element :=
  let hi := x.hi >>> 1
  let lo := (x.lo >>> 1) ||| (x.hi <<< 63)
  if x.lo &&& 1 = 0 then ⟨hi, lo⟩ else ⟨hi ^^^ 0xe100000000000000, lo⟩

/-- Adds to `acc` the product of `y` and the `n` highest bits of `bits`; gives back `y` shifted on. -/
def mulWord : Nat → UInt64 → Element → Element → Element × Element
  | 0, _, y, acc => (y, acc)
  | n + 1, bits, y, acc =>
    mulWord n (bits <<< 1) y.shift (if bits &&& 0x8000000000000000 = 0 then acc else acc.add y)

def mul (x y : Element) : Element :=
  let (y', acc) := mulWord 64 x.hi y zero
  (mulWord 64 x.lo y' acc).2

/-- The element that sixteen bytes stand for; missing bytes are zero. -/
def ofBytes (b : Bytes) : Element :=
  let word := fun c : Bytes => UInt64.ofNat (Bytes.toNat ((c ++ List.replicate 8 0).take 8))
  ⟨word (b.take 8), word (b.drop 8)⟩

def toBlock (x : Element) : Block :=
  Vector.ofFn fun i : Fin 16 =>
    if i.val < 8 then (x.hi >>> UInt64.ofNat (56 - 8 * i.val)).toUInt8
    else (x.lo >>> UInt64.ofNat (120 - 8 * i.val)).toUInt8

end Element

/-- Takes the first `n` blocks of a byte string into the hash. -/
def absorb (h : Element) : Nat → Element → Bytes → Element
  | 0, acc, _ => acc
  | n + 1, acc, b => absorb h n ((acc.add (.ofBytes (b.take 16))).mul h) (b.drop 16)

/-- How many blocks a byte string needs. -/
def blockCount (b : Bytes) : Nat :=
  (b.length + 15) / 16

/-- The hash of a ciphertext under the hash key `h`. -/
def ghash (h : Element) (ciphertext : Bytes) : Element :=
  let acc := absorb h (blockCount ciphertext) .zero ciphertext
  (acc.add ⟨0, UInt64.ofNat (8 * ciphertext.length)⟩).mul h

/-! ## The stream -/

/-- The counter block of a nonce and a count. -/
def counterBlock (nonce : Nonce) (count : UInt32) : Block :=
  nonce ++ #v[(count >>> 24).toUInt8, (count >>> 16).toUInt8, (count >>> 8).toUInt8, count.toUInt8]

/-- The stream from a count on, in blocks. -/
def stream (keys : List Block) (nonce : Nonce) : Nat → UInt32 → Bytes
  | 0, _ => []
  | n + 1, count =>
    (Aes256.encryptWith keys (counterBlock nonce count)).toList ++ stream keys nonce n (count + 1)

@[simp] theorem length_stream (keys : List Block) (nonce : Nonce) (n : Nat) (count : UInt32) :
    (stream keys nonce n count).length = 16 * n := by
  induction n generalizing count with
  | zero => rfl
  | succ n ih => simp [stream, ih]; omega

/-- A message with the stream of key and nonce added; the first count is kept for the tag. -/
def crypt (keys : List Block) (nonce : Nonce) (m : Bytes) : Bytes :=
  List.zipWith (· ^^^ ·) m (stream keys nonce (blockCount m) 2)

@[simp] theorem length_crypt (keys : List Block) (nonce : Nonce) (m : Bytes) :
    (crypt keys nonce m).length = m.length := by
  simp [crypt, blockCount]
  omega

theorem zipWith_xor_self (m s : Bytes) (h : m.length ≤ s.length) :
    List.zipWith (· ^^^ ·) (List.zipWith (· ^^^ ·) m s) s = m := by
  induction m generalizing s with
  | nil => rfl
  | cons c r ih =>
    cases s with
    | nil => simp at h
    | cons d t =>
      rw [List.zipWith_cons_cons, List.zipWith_cons_cons, UInt8.xor_assoc, UInt8.xor_self,
        UInt8.xor_zero, ih t (by simpa using h)]

theorem crypt_crypt (keys : List Block) (nonce : Nonce) (m : Bytes) :
    crypt keys nonce (crypt keys nonce m) = m := by
  have h : blockCount (crypt keys nonce m) = blockCount m := by simp [blockCount]
  rw [crypt, h]
  exact zipWith_xor_self _ _ (by simp [blockCount]; omega)

/-! ## Sealing and opening -/

/-- The tag of a ciphertext. -/
def tag (keys : List Block) (nonce : Nonce) (ciphertext : Bytes) : Block :=
  let h := Element.ofBytes (Aes256.encryptWith keys (Vector.replicate 16 0)).toList
  Aes256.xor (ghash h ciphertext).toBlock (Aes256.encryptWith keys (counterBlock nonce 1))

/-- The longest message that one nonce may serve, in bytes. -/
def maxLength : Nat := 1 <<< 36

/-- Ciphertext and tag of a message; a message past the limit is refused. -/
def encrypt? (key : Key) (nonce : Nonce) (m : Bytes) : Option Bytes :=
  if m.length ≤ maxLength then
    let keys := Aes256.roundKeys key
    let c := crypt keys nonce m
    some (c ++ (tag keys nonce c).toList)
  else none

/-- The message of a ciphertext with its tag; anything whose tag does not match is refused. -/
def decrypt? (key : Key) (nonce : Nonce) (b : Bytes) : Option Bytes :=
  if b.length < 16 ∨ maxLength < b.length - 16 then none
  else
    let keys := Aes256.roundKeys key
    let c := b.take (b.length - 16)
    if b.drop (b.length - 16) = (tag keys nonce c).toList then some (crypt keys nonce c) else none

end PbxAgent.Crypto.Gcm
