import PbxAgent.Config.Load
import PbxAgent.Status

/-!
# The command line

What the arguments ask for, and what comes of it before the first connection: a result at once, or a
configuration to run the agent with.
-/

namespace PbxAgent.CommandLine

/-! ## Arguments -/

/-- Which of the two passwords. -/
inductive Secret where
  | loginPassword
  | adminPassword
  deriving DecidableEq, Repr

/-- What the program can be told to do. -/
inductive Command where
  | run
  | readSecret (secret : Secret)
  deriving DecidableEq, Repr

/-- The topics of the help pages. -/
inductive Topic where
  | program
  | run
  | readSecret
  | help
  deriving DecidableEq, Repr

/-- What the arguments ask for. -/
inductive Request where
  | command (config : Option String) (c : Command)
  | version
  | help (topic : Topic)
  deriving DecidableEq, Repr

/-- Why the arguments ask for nothing. -/
inductive UsageError where
  /-- An argument that means nothing where it stands. -/
  | unexpected (arg : String)
  /-- An option without its value. -/
  | missingValue (option : String)
  /-- A flag with a value. -/
  | needlessValue (option : String)
  /-- An option given twice. -/
  | repeated (option : String)
  /-- Two flags of which one only may be given. -/
  | conflict (option other : String)
  /-- Neither of two flags of which one must be given. -/
  | missingSecret
  deriving DecidableEq, Repr

def UsageError.message : UsageError → String
  | unexpected arg => s!"error: unexpected argument '{arg}' found"
  | missingValue option =>
    s!"error: a value is required for '{option} <CONFIG>' but none was supplied"
  | needlessValue option => s!"error: unexpected value for '{option}' found; no more were expected"
  | repeated option => s!"error: the argument '{option}' cannot be used multiple times"
  | conflict option other => s!"error: the argument '{option}' cannot be used with '{other}'"
  | missingSecret =>
    "error: the following required arguments were not provided:\n  <--sysclient|--admin>"

/-- What an argument is by its looks. -/
inductive Shape where
  /-- Two dashes and nothing else: only plain words follow. -/
  | separator
  /-- A name behind two dashes, with a value behind an equals sign where there is one. -/
  | long (name : String) (value : Option String)
  /-- Letters behind a dash, the first of which decides. -/
  | short (first : Char)
  | word
  deriving DecidableEq, Repr

/-- A dash alone is a word. -/
def shape (arg : String) : Shape :=
  match arg.toList with
  | ['-', '-'] => .separator
  | '-' :: '-' :: r =>
    let name := String.ofList (r.takeWhile (· ≠ '='))
    match r.dropWhile (· ≠ '=') with
    | [] => .long name none
    | _ :: value => .long name (some (.ofList value))
  | '-' :: c :: _ => .short c
  | _ => .word

/-- What has been read of the arguments: the file of the configuration, and the secrets asked for. -/
structure Draft where
  config : Option String := none
  secrets : List Secret := []
  deriving DecidableEq, Repr

/-- Sets the file of the configuration, once. -/
def Draft.setConfig (d : Draft) (path : String) : Except UsageError Draft :=
  if d.config.isSome then .error (.repeated "--config <CONFIG>")
  else .ok { d with config := some path }

def Secret.flag : Secret → String
  | loginPassword => "--sysclient"
  | adminPassword => "--admin"

/-- Asks for a secret, once. -/
def Draft.addSecret (d : Draft) (secret : Secret) : Except UsageError Draft :=
  if d.secrets.contains secret then .error (.repeated secret.flag)
  else .ok { d with secrets := d.secrets ++ [secret] }

/-- The one secret that is asked for. -/
def Draft.secret (d : Draft) : Except UsageError Secret :=
  match d.secrets with
  | [] => .error .missingSecret
  | [s] => .ok s
  | s :: other :: _ => .error (.conflict s.flag other.flag)

/-- Refuses all words behind a separator. -/
def nothingMore : List String → Except UsageError Unit
  | [] => .ok ()
  | arg :: _ => .error (.unexpected arg)

/-- What one level of arguments comes to. -/
inductive Level where
  | done (d : Draft)
  | help
  | version
  /-- A word that is no option, with what follows it. -/
  | word (d : Draft) (arg : String) (rest : List String)

/-- Whether a name is that of an option without a value. -/
def isFlag (secrets version : Bool) (name : String) : Bool :=
  name = "help" || (version && name = "version")
    || (secrets && (name = "sysclient" || name = "admin"))

/-- Reads options up to the first word, or to the end. The flags for secrets and the one for the
version are not taken everywhere. -/
def options (secrets version : Bool) (d : Draft) : List String → Except UsageError Level
  | [] => .ok (.done d)
  | arg :: rest =>
    match shape arg with
    | .separator => do nothingMore rest; return .done d
    | .word => .ok (.word d arg rest)
    | .short 'h' => .ok .help
    | .short 'V' => if version then .ok .version else .error (.unexpected arg)
    | .short _ => .error (.unexpected arg)
    | .long "config" (some path) => do options secrets version (← d.setConfig path) rest
    | .long "config" none =>
      match rest with
      | [] => .error (.missingValue arg)
      | path :: rest => do
        if shape path ≠ .word then throw (.missingValue arg)
        options secrets version (← d.setConfig path) rest
    | .long "help" none => .ok .help
    | .long "version" none => if version then .ok .version else .error (.unexpected arg)
    | .long "sysclient" none =>
      if secrets then do options secrets version (← d.addSecret .loginPassword) rest
      else .error (.unexpected arg)
    | .long "admin" none =>
      if secrets then do options secrets version (← d.addSecret .adminPassword) rest
      else .error (.unexpected arg)
    | .long name (some _) =>
      if isFlag secrets version name then .error (.needlessValue ("--" ++ name))
      else .error (.unexpected arg)
    | .long _ none => .error (.unexpected arg)

/-- What the arguments of a command come to. -/
def finish (topic : Topic) (command : Draft → Except UsageError Request) :
    Except UsageError Level → Except UsageError Request
  | .error e => .error e
  | .ok (.done d) => command d
  | .ok .help => .ok (.help topic)
  | .ok .version => .ok .version
  | .ok (.word _ arg _) => .error (.unexpected arg)

/-- The page that is asked for behind the word for help. -/
def helpTopic : List String → Except UsageError Request
  | [] => .ok (.help .program)
  | "run" :: r => do nothingMore r; return .help .run
  | "read-secret" :: r => do nothingMore r; return .help .readSecret
  | "help" :: r => do nothingMore r; return .help .help
  | arg :: _ => .error (.unexpected arg)

/-- Reads the arguments. A file that is given behind a command goes before one in front of it. -/
def parse (args : List String) : Except UsageError Request := do
  match ← options false true {} args with
  | .done d => return .command d.config .run
  | .help => return .help .program
  | .version => return .version
  | .word outer "run" rest =>
    finish .run (fun d => .ok (.command (d.config.or outer.config) .run))
      (options false false {} rest)
  | .word outer "read-secret" rest =>
    finish .readSecret (fun d => do
        return .command (d.config.or outer.config) (.readSecret (← d.secret)))
      (options true false {} rest)
  | .word _ "help" rest => helpTopic rest
  | .word _ arg _ => throw (.unexpected arg)

/-! ## Results -/

/-- What goes wrong with a run of the program. -/
inductive Trouble where
  | usage (e : UsageError)
  | config (e : ConfigError)
  | credential (e : CredentialError)
  /-- The configuration names no backend. -/
  | noBackend
  deriving DecidableEq, Repr

def Trouble.message : Trouble → String
  | usage e => e.message
  | config e => "sysclient: " ++ e.message
  | credential e => "ERROR " ++ e.message
  | noBackend => "ERROR No backend URL - set SYSCLIENT_URL or [connection] url"

/-- What a run of the program shows. -/
structure Outcome where
  code : Nat
  output : Bytes := []
  trouble : Option Trouble := none
  deriving DecidableEq, Repr

/-- What is to be done once the arguments and the configuration are read. -/
inductive Plan where
  | finish (o : Outcome)
  | serve (c : Config)

def success : Nat := 0
def failure : Nat := 1
def usageFailure : Nat := 2

/-- A text and the end of its line. -/
def line (s : String) : Bytes :=
  Text.Utf8.encode s ++ [0x0A]

def optionsHelp (more : List String) : List String :=
  "Options:" :: "      --config <CONFIG>  Path to TOML config file" :: more
    ++ ["  -h, --help             Print help"]

/-- The lines of a help page. -/
def Topic.page : Topic → List String
  | program => ["System client for PBX devices", "", "Usage: sysclient [OPTIONS] [COMMAND]", "",
      "Commands:",
      "  run          Connect to the backend (default when no subcommand given)",
      "  read-secret  Decrypt one stored credential and print it to stdout",
      "  help         Print this message or the help of the given subcommand(s)", ""]
      ++ optionsHelp [] ++ ["  -V, --version          Print version"]
  | run => ["Connect to the backend (default when no subcommand given)", "",
      "Usage: sysclient run [OPTIONS]", ""] ++ optionsHelp []
  | readSecret => ["Decrypt one stored credential and print it to stdout", "",
      "Usage: sysclient read-secret [OPTIONS] <--sysclient|--admin>", ""]
      ++ optionsHelp ["      --sysclient        The sysclient password provisioned by the backend",
        "      --admin            The administrative password"]
  | help => ["Print this message or the help of the given subcommand(s)", "",
      "Usage: sysclient help [COMMAND]..."]

/-- Which file a secret is in. -/
def Secret.file (paths : CredentialPaths) : Secret → String
  | loginPassword => paths.loginPassword
  | adminPassword => paths.adminPassword

/-- The end of a run that something has gone wrong with. -/
def failed (t : Trouble) : Outcome :=
  { code := match t with
      | .usage _ => usageFailure
      | _ => failure
    trouble := some t }

/-- Shows a secret, with replacement characters for what is no text. -/
def showSecret (c : Config) (secret : Secret) (files : Storage.FileTree) : Outcome :=
  let vault := Vault.ofSecret (Text.Utf8.encode c.vault.secret)
  match vault.load (secret.file c.vault.paths) files with
  | .ok b => { code := success, output := line (Text.Utf8.decodeLossy b) }
  | .error e => failed (.credential e)

/-- Carries out a command as far as it goes without the backend. -/
def planCommand (config : Option String) (environment : Environment) (files : Storage.FileTree) :
    Command → Plan
  | .run =>
    match Config.load config environment files with
    | .error e => .finish (failed (.config e))
    | .ok c => if c.connection.url = "" then .finish (failed .noBackend) else .serve c
  | .readSecret secret =>
    match Config.loadForVault config environment files with
    | .error e => .finish (failed (.config e))
    | .ok c => .finish (showSecret c secret files)

/-- What is to be done for some arguments. -/
def plan (args : List String) (environment : Environment) (files : Storage.FileTree) : Plan :=
  match parse args with
  | .error e => .finish (failed (.usage e))
  | .ok .version => .finish { code := success, output := line ("sysclient " ++ Status.version) }
  | .ok (.help topic) => .finish { code := success, output := topic.page.flatMap line }
  | .ok (.command config c) => planCommand config environment files c

end PbxAgent.CommandLine
