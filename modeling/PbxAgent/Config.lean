import PbxAgent.Handshake
import PbxAgent.Text.Blank

/-!
# Configuration

What the agent is set up with: defaults, the settings that the environment may replace, and what must
hold before the agent starts.
-/

namespace PbxAgent

/-! ## Settings -/

/-- How the backend is reached. -/
structure ConnectionSettings where
  url : String := ""
  connectTimeout : Nat := 2
  reconnectDelay : Nat := 2
  acceptAnyCertificate : Bool := false
  deriving DecidableEq, Repr

/-- How credentials are kept. -/
structure VaultSettings where
  loginPasswordFile : String := "/var/lib/sysclient/sysclient.pwd"
  adminPasswordFile : String := "/var/lib/sysclient/admin.pwd"
  secret : String := "change-me"
  deriving DecidableEq, Repr

/-- How responses are handed out. -/
structure TunnelSettings where
  pieceSize : Nat := 8000
  deriving DecidableEq, Repr

/-- What is logged. -/
structure LoggingSettings where
  level : String := "info"
  deriving DecidableEq, Repr

/-- All settings. -/
structure Config where
  connection : ConnectionSettings := {}
  identity : Identity := {}
  vault : VaultSettings := {}
  tunnel : TunnelSettings := {}
  logging : LoggingSettings := {}
  deriving DecidableEq, Repr

/-- Where the two passwords are kept. -/
def VaultSettings.paths (s : VaultSettings) : CredentialPaths :=
  ⟨s.loginPasswordFile, s.adminPasswordFile⟩

/-! ## Environment -/

/-- The settings that the environment gives. -/
structure Environment where
  url : Option String := none
  secret : Option String := none
  id : Option String := none
  deriving DecidableEq, Repr

/-- The configuration with the environment's settings in place of its own. -/
def Config.override (c : Config) (e : Environment) : Config :=
  { c with
    connection := { c.connection with url := e.url.getD c.connection.url }
    vault := { c.vault with secret := e.secret.getD c.vault.secret }
    identity := { c.identity with id := e.id.getD c.identity.id } }

/-! ## Validity -/

/-- What is wrong with a configuration. -/
inductive ConfigProblem where
  /-- A setting of blanks only. -/
  | empty (setting : String)
  | interfaces (count : Nat)
  | pieceSize
  deriving DecidableEq, Repr

/-- The most interfaces that an identity may have. -/
def Identity.maxInterfaces : Nat := 3

def ConfigProblem.message : ConfigProblem → String
  | empty setting => setting ++ " cant be empty"
  | interfaces count =>
    s!"identity.eth_ifs has {count} entries, at most {Identity.maxInterfaces} allowed"
  | pieceSize => "tunnel.chunk_size must be > 0"

/-- Refuses a setting of blanks only. -/
def requireSetting (setting value : String) : Except ConfigProblem Unit :=
  if Text.isAllBlank value then .error (.empty setting) else .ok ()

/-- What the vault needs. -/
def VaultSettings.validate (s : VaultSettings) : Except ConfigProblem Unit := do
  requireSetting "vault.sysclient_password_file" s.loginPasswordFile
  requireSetting "vault.admin_password_file" s.adminPasswordFile

/-- What the agent needs. -/
def Config.validate (c : Config) : Except ConfigProblem Unit := do
  requireSetting "identity.id" c.identity.id
  requireSetting "identity.product" c.identity.product
  requireSetting "identity.version" c.identity.version
  c.vault.validate
  if Identity.maxInterfaces < c.identity.interfaces.length then
    throw (.interfaces c.identity.interfaces.length)
  if c.tunnel.pieceSize = 0 then throw .pieceSize

end PbxAgent
