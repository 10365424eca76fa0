import PbxAgent.Config.Document

/-!
# Loading the configuration

From a file and the environment, which takes precedence. A file that is named must be there; the one
of the default name need not.
-/

namespace PbxAgent

open Storage (FileTree FileError)

/-- Why there is no configuration. -/
inductive ConfigError where
  | read (path : String) (cause : FileError)
  | parse (path : String) (flaw : Config.Flaw)
  | invalid (problem : ConfigProblem)
  deriving DecidableEq, Repr

def ConfigError.message : ConfigError → String
  | read path cause => s!"failed to read config file {path}: {cause.message}"
  | parse path flaw => s!"failed to parse config file {path}: {flaw.message}"
  | invalid problem => "invalid configuration: " ++ problem.message

/-- The settings in an environment. Variables that are no text count as not set. -/
def Environment.ofVariables (lookup : String → Option Bytes) : Environment :=
  let text (name : String) := (lookup name).bind Text.Utf8.decode?
  ⟨text "SYSCLIENT_URL", text "SYSCLIENT_SECRET_KEY", text "SYSCLIENT_ID"⟩

namespace Config

/-- The file that is looked for where none is named. -/
def defaultFile : String := "sysclient.toml"

/-- Reads a file. -/
def fromFile (path : String) (files : FileTree) : Except ConfigError Config :=
  match files.read (Text.Utf8.encode path) with
  | .error e => .error (.read path e)
  | .ok content =>
    match Text.Utf8.decodeChars? content with
    | none => .error (.read path .notText)
    | some text => (parse text).mapError (.parse path)

/-- Whether there is anything at a path. -/
def isThere (path : String) (files : FileTree) : Bool :=
  match files.lookup (Text.Utf8.encode path) with
  | .ok _ => true
  | .error _ => false

/-- The settings of the file, or the defaults, and those of the environment in their place. -/
def resolve (path : Option String) (e : Environment) (files : FileTree) :
    Except ConfigError Config := do
  let config ← match path with
    | some p => fromFile p files
    | none => if isThere defaultFile files then fromFile defaultFile files else .ok {}
  return config.override e

/-- The configuration for the agent. -/
def load (path : Option String) (e : Environment) (files : FileTree) :
    Except ConfigError Config := do
  let config ← resolve path e files
  config.validate.mapError .invalid
  return config

/-- The configuration for a look into the vault, which is all that must be set up. -/
def loadForVault (path : Option String) (e : Environment) (files : FileTree) :
    Except ConfigError Config := do
  let config ← resolve path e files
  config.vault.validate.mapError .invalid
  return config

end Config

end PbxAgent
