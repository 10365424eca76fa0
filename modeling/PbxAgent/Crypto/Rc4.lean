import PbxAgent.Bytes

/-!
# RC4

A key fixes an endless stream of bytes; a message is enciphered by adding the stream to it bit by
bit, so that enciphering twice gives the message back (`crypt_crypt`), and what comes later in a
message does not bear on what comes before (`crypt_take`).
-/

namespace PbxAgent.Crypto.Rc4

/-- A permutation of the bytes and two places in it. -/
structure State where
  box : Vector UInt8 256
  i : UInt8
  j : UInt8

/-- What the permutation holds at a place. -/
def State.at (s : State) (k : UInt8) : UInt8 :=
  s.box.get ⟨k.toNat, k.toNat_lt⟩

/-- Exchanges the bytes at two places. -/
def swap (box : Vector UInt8 256) (i j : UInt8) : Vector UInt8 256 :=
  box.swap i.toNat j.toNat i.toNat_lt j.toNat_lt

/-- One step of the key schedule, at place `i` with its key byte. -/
def mix (s : State) (k : UInt8) : State :=
  let j := s.j + s.at s.i + k
  { box := swap s.box s.i j, i := s.i + 1, j := j }

/-- The permutation that a key makes: its bytes, over and over, drive one pass over the places. -/
def schedule (key : Bytes) : State :=
  let start : State := { box := Vector.ofFn fun k => UInt8.ofNat k.val, i := 0, j := 0 }
  let cycle := (List.replicate (256 / key.length + 1) key).flatten.take 256
  { cycle.foldl mix start with i := 0, j := 0 }

/-- The state that a key makes, in a cipher for keys of one length. -/
def schedule? (length : Nat) (key : Bytes) : Option State :=
  if key.length = length then some (schedule key) else none

/-- The next byte of the stream, and the state after it. -/
def State.next (s : State) : UInt8 × State :=
  let i := s.i + 1
  let j := s.j + s.at i
  let moved : State := { box := swap s.box i j, i := i, j := j }
  (moved.at (moved.at i + moved.at j), moved)

/-- Adds the stream from a state on to a message. -/
def State.crypt : State → Bytes → Bytes
  | _, [] => []
  | s, m :: r => (m ^^^ s.next.1) :: s.next.2.crypt r

/-- Enciphers, and deciphers, a message under a key. -/
def crypt (key m : Bytes) : Bytes :=
  (schedule key).crypt m

/-! ## Laws -/

theorem State.crypt_crypt (s : State) (m : Bytes) : s.crypt (s.crypt m) = m := by
  induction m generalizing s with
  | nil => rfl
  | cons c r ih =>
    rw [State.crypt, State.crypt, UInt8.xor_assoc, UInt8.xor_self, UInt8.xor_zero, ih]

@[simp] theorem State.length_crypt (s : State) (m : Bytes) : (s.crypt m).length = m.length := by
  induction m generalizing s with
  | nil => rfl
  | cons c r ih => simp [State.crypt, ih]

theorem State.crypt_take (s : State) (n : Nat) (m : Bytes) :
    s.crypt (m.take n) = (s.crypt m).take n := by
  induction m generalizing s n with
  | nil => simp [State.crypt]
  | cons c r ih => cases n <;> simp [State.crypt, ih]

theorem crypt_crypt (key m : Bytes) : crypt key (crypt key m) = m :=
  State.crypt_crypt _ m

@[simp] theorem length_crypt (key m : Bytes) : (crypt key m).length = m.length :=
  State.length_crypt _ m

theorem crypt_take (key : Bytes) (n : Nat) (m : Bytes) :
    crypt key (m.take n) = (crypt key m).take n :=
  State.crypt_take _ n m

end PbxAgent.Crypto.Rc4
