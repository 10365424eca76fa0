import PbxAgent.CommandLine
import PbxAgent.Uplink

/-!
# The program

Arguments, environment and files in, results out. The socket itself is left to whoever starts the
program: a frame is a line of hexadecimal digits, those of the backend on standard input and the
agent's own on standard output. The end of the input is the end of the connection.
-/

namespace PbxAgent.Program

open Storage (Entry FileTree Name Path Place)

/-! ## Files -/

/-- A place as a path from the root. -/
def pathText (p : Place) : String :=
  "/" ++ Text.Utf8.decodeLossy (Path.join p)

/-- What is at a place in a directory. -/
def entryAt (p : Place) : IO (Option Entry) := do
  try
    let data ← IO.FS.readBinFile (pathText p)
    return some (.file FileTree.defaultMode data.toList)
  catch
    | .inappropriateType .. => return some .directory
    | _ => return none

/-- Takes into the tree what is on the way of a path. -/
def takeIn (t : FileTree) : Place → List Name → IO FileTree
  | _, [] => return t
  | p, n :: ns => do
    if Path.isIdle n then takeIn t p ns
    else if n = Path.dotDot then takeIn t p.dropLast ns
    else
      let q := p ++ [n]
      match ← entryAt q with
      | none => return t
      | some (.file mode data) => return t.set q (.file mode data)
      | some .directory => takeIn (t.set q .directory) q ns

/-- The working directory, with what is on the way of some paths. -/
def takePaths (paths : List String) : IO FileTree := do
  let here := (Path.segments (Text.Utf8.encode (← IO.currentDir).toString)).filter (· ≠ [])
  let mut t ← takeIn {} [] here
  t := { t with workingDirectory := here }
  for path in paths do
    let path := Text.Utf8.encode path
    t ← takeIn t (t.origin path) (Path.segments path)
  return t

/-- The owner's own file. -/
def ownerOnly : IO.FileRight where
  user := { read := true, write := true }

/-- Writes a file that has changed, by way of another that takes its place. -/
def putBack (old new : FileTree) (process : UInt32) (path : String) : IO Unit := do
  let target := Text.Utf8.encode path
  match new.read target with
  | .error _ => return
  | .ok data =>
    if (old.read target).toOption = some data then return
    let beside := Text.Utf8.decodeLossy (Vault.temporaryPath target process 0)
    IO.FS.writeBinFile beside ⟨data.toArray⟩
    IO.setAccessRights beside ownerOnly
    IO.FS.rename beside path

/-! ## The agent at work -/

/-- A nonce that nobody has seen. -/
def freshNonce : IO Crypto.Gcm.Nonce := do
  let drawn ← IO.getRandomBytes 12
  return if h : drawn.data.size = 12 then ⟨drawn.data, h⟩ else Vector.replicate 12 0

def printFrame (frame : Bytes) : IO Unit := do
  let out ← IO.getStdout
  out.putStrLn (Text.Hex.encode frame)
  out.flush

/-- The status pages as they are some nanoseconds after the start. -/
def pages (c : Config) (elapsed : Nat) (stats : Stats) : Handler :=
  Status.handler { identity := c.identity, stats := stats, uptime := elapsed, now := elapsed }

/-- Deals with frames to the end of the input. -/
partial def serve (c : Config) (start : Nat) (u : Uplink) : IO Uplink := do
  let line ← (← IO.getStdin).getLine
  if line.isEmpty then return u
  match Text.Hex.decode? line.trimAscii.toString with
  | none =>
    IO.eprintln "WARN not a line of hexadecimal digits"
    serve c start u
  | some data =>
    let nonce ← freshNonce
    let elapsed := (← IO.monoNanosNow) - start
    let u := { u with host := { u.host with nonces := fun _ => nonce }, now := elapsed }
    let (reply, v) := u.receive (pages c elapsed) { message := .ok (.binary data) }
    putBack u.host.files v.host.files v.host.process c.vault.loginPasswordFile
    putBack u.host.files v.host.files v.host.process c.vault.adminPasswordFile
    match reply with
    | .error _ => return v
    | .ok reply =>
      if let some frame := reply then printFrame frame
      serve c start v

/-- One connection, from the agent's presentation to the end of the input. -/
def work (c : Config) : IO Unit := do
  let start ← IO.monoNanosNow
  let files ← takePaths [c.vault.loginPasswordFile, c.vault.adminPasswordFile]
  let nonce ← freshNonce
  let process ← IO.rand 1 (1 <<< 22)
  let host : Host := { files := files, nonces := fun _ => nonce, process := .ofNat process }
  let u : Uplink := { agent := .ofConfig c, host := host }
  let (frame, u) := u.connect c.connection.url
  printFrame frame
  let _ ← serve c start u.presented

/-! ## Arguments -/

/-- The file that the configuration is in. -/
def configFile (args : List String) : String :=
  match CommandLine.parse args with
  | .ok (.command (some path) _) => path
  | _ => Config.defaultFile

/-- The settings in the environment. -/
def environment : IO Environment := do
  return ⟨← IO.getEnv "SYSCLIENT_URL", ← IO.getEnv "SYSCLIENT_SECRET_KEY",
    ← IO.getEnv "SYSCLIENT_ID"⟩

/-- The files that a command needs: the configuration, and the secrets that it names. -/
def filesFor (args : List String) (e : Environment) : IO FileTree := do
  let path := configFile args
  let files ← takePaths [path]
  match Config.resolve (some path) e files with
  | .ok c => takePaths [path, c.vault.loginPasswordFile, c.vault.adminPasswordFile]
  | .error _ => return files

end PbxAgent.Program

open PbxAgent Program in
/-- The command line. -/
def main (args : List String) : IO UInt32 := do
  let e ← environment
  let files ← filesFor args e
  match CommandLine.plan args e files with
  | .finish o =>
    let out ← IO.getStdout
    out.write ⟨o.output.toArray⟩
    if let some t := o.trouble then IO.eprintln t.message
    return .ofNat o.code
  | .serve c =>
    work c
    return .ofNat CommandLine.success
