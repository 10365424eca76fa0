import PbxAgent.Crypto.Rc4
import PbxAgent.Text.Utf8
import PbxAgent.Validation

/-!
# The administrative password

It travels enciphered under a seed, which comes along, and the login password, which both sides
hold.
-/

namespace PbxAgent.Credential

/-- Bytes of a login password. -/
def loginPasswordLength : Nat := 32

/-- Bytes of a seed. -/
def seedLength : Nat := 16

/-- Bytes of the keys that the cipher is made for. -/
def cipherKeyLength : Nat := 49

/-- The key that deciphers an administrative password. -/
def adminPasswordKey (loginPassword : Bytes) (seed : String) : Bytes :=
  Text.Utf8.encode seed ++ 0x3A :: loginPassword

/-- The cipher under a key, which must be of the one length. -/
def cipher (key : Bytes) : Except ValidationError Crypto.Rc4.State :=
  match Crypto.Rc4.schedule? cipherKeyLength key with
  | some s => .ok s
  | none => .error (.length "key" key.length (seedLength + 1 + loginPasswordLength))

/-- Deciphers an administrative password; the first field that is amiss is reported. -/
def decryptAdminPassword (loginPassword : Bytes) (seed : String) (pwd : Bytes) :
    Except ValidationError Bytes := do
  requireNonempty "sysclientPassword" loginPassword
  requireLength "sysclientPassword" loginPassword loginPasswordLength
  requireNonempty "seed" (Text.Utf8.encode seed)
  requireLength "seed" (Text.Utf8.encode seed) seedLength
  requireNonempty "pwd" pwd
  let s ← cipher (adminPasswordKey loginPassword seed)
  return s.crypt pwd

end PbxAgent.Credential
