import PbxAgent.Crypto.Sha256
import PbxAgent.Text.Hex
import PbxAgent.Text.Utf8
import PbxAgent.Validation

/-!
# The login digest

The agent proves that it holds the login password by hashing it together with its identity and the
backend's challenge.
-/

namespace PbxAgent.Credential

open Text (Utf8.encode)

/-- The hash of a byte string as hexadecimal text. -/
def hashText (b : Bytes) : String :=
  Text.Hex.encode (Crypto.Sha256.hash b)

/-- The text that is hashed: the five fields with colons between them. -/
def loginText (id product version challenge password : String) : Bytes :=
  [id, product, version, challenge, password].map Utf8.encode |>.intersperse [0x3A] |>.flatten

/-- The digest that answers a challenge; the first empty field is reported. -/
def loginDigest (id product version challenge password : String) :
    Except ValidationError String := do
  requireNonempty "id" (Utf8.encode id)
  requireNonempty "product" (Utf8.encode product)
  requireNonempty "version" (Utf8.encode version)
  requireNonempty "challenge" (Utf8.encode challenge)
  requireNonempty "password" (Utf8.encode password)
  return hashText (loginText id product version challenge password)

end PbxAgent.Credential
