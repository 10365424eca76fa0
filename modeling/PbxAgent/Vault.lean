import PbxAgent.Crypto.Gcm
import PbxAgent.Crypto.Sha256
import PbxAgent.Storage.FileTree
import PbxAgent.Text.Utf8

/-!
# The credential vault

Credentials are kept in files, one each, sealed under a key that is the hash of a secret: a nonce,
then ciphertext and tag. A store writes a file of another name beside the target and renames it, so
that the target holds the old or the new credential at all times.
-/

namespace PbxAgent

open Crypto (Gcm.Nonce Aes256.Key)
open Storage (FileTree FileError Path)

/-- Why a credential could not be stored or loaded. -/
inductive CredentialError where
  | read (path : String) (cause : FileError)
  | write (path : String) (cause : FileError)
  | isDirectory (path : String)
  | encrypt
  | decrypt (origin : String)
  | truncated (origin : String)
  deriving DecidableEq, Repr

def CredentialError.message : CredentialError → String
  | read path cause => "could not read credential file '" ++ path ++ "': " ++ cause.message
  | write path cause => "could not write credential file '" ++ path ++ "': " ++ cause.message
  | isDirectory path => "credential file '" ++ path ++ "' is a directory"
  | encrypt => "encryption failed"
  | decrypt origin => "decryption of '" ++ origin ++ "' failed: wrong secret or corrupted file"
  | truncated origin => "credential file '" ++ origin ++ "' is truncated"

/-- The machine that the agent runs on, as far as the vault is concerned. -/
structure Host where
  files : FileTree := {}
  /-- The nonces that will be drawn, by their number. -/
  nonces : Nat → Gcm.Nonce
  /-- How many have been drawn. -/
  drawn : Nat := 0
  /-- The number of the agent's process. -/
  process : UInt32 := 1000
  /-- How many stores the process has begun; the count starts over past its greatest value. -/
  stores : UInt64 := 0

/-- Draws a nonce. -/
def Host.draw (h : Host) : Gcm.Nonce × Host :=
  (h.nonces h.drawn, { h with drawn := h.drawn + 1 })

/-- A vault is its key. -/
structure Vault where
  key : Aes256.Key
  deriving DecidableEq

namespace Vault

/-- The vault of a secret of any length. -/
def ofSecret (secret : Bytes) : Vault :=
  ⟨⟨(Crypto.Sha256.hash secret).toArray, by simp⟩⟩

/-! ## Sealing -/

/-- Bytes of a nonce. -/
def nonceLength : Nat := 12

/-- A sealed credential, unless it is too long. -/
def seal? (v : Vault) (nonce : Gcm.Nonce) (plaintext : Bytes) : Option Bytes :=
  (Crypto.Gcm.encrypt? v.key nonce plaintext).map (nonce.toList ++ ·)

/-- The nonce in front of a sealed credential. -/
def nonceOf (sealed : Bytes) (h : nonceLength ≤ sealed.length) : Gcm.Nonce :=
  ⟨(sealed.take nonceLength).toArray, by simp [nonceLength] at *; omega⟩

/-- Opens a sealed credential; `origin` is for errors. -/
def openSealed (v : Vault) (sealed : Bytes) (origin : String) : Except CredentialError Bytes :=
  if h : nonceLength ≤ sealed.length then
    match Crypto.Gcm.decrypt? v.key (nonceOf sealed h) (sealed.drop nonceLength) with
    | some p => .ok p
    | none => .error (.decrypt origin)
  else .error (.truncated origin)

/-! ## Storing -/

/-- The mode of a stored credential: for the owner alone. -/
def fileMode : Nat := 0o600

/-- The name of the file that a store writes first. -/
def temporaryName (process : UInt32) (store : UInt64) : Bytes :=
  Text.Utf8.encode s!".sysclient_tmp_{process}_{store}"

/-- The path of that file, in the directory of the target. -/
def temporaryPath (target : Path) (process : UInt32) (store : UInt64) : Path :=
  let directory := match Path.parent? target with
    | some p => if p = [] then Path.dot else p
    | none => Path.dot
  Path.child directory (temporaryName process store)

/-- One change to the files. -/
inductive Operation where
  | create (path : Path)
  | append (path : Path) (data : Bytes)
  | setMode (path : Path) (mode : Nat)
  | rename (source target : Path)
  deriving DecidableEq, Repr

def Operation.apply : Operation → FileTree → Except FileError FileTree
  | create path, t => t.create path
  | append path data, t => t.append path data
  | setMode path mode, t => t.setMode path mode
  | rename source target, t => t.rename source target

/-- Operations one after the other, up to the first that fails; with the files as they are then. -/
def applyAll : List Operation → FileTree → Except FileError Unit × FileTree
  | [], t => (.ok (), t)
  | op :: ops, t =>
    match op.apply t with
    | .error e => (.error e, t)
    | .ok t => applyAll ops t

/-- What a store does to get the sealed credential, in pieces, into the file beside the target. -/
def writeOperations (temporary : Path) (pieces : List Bytes) : List Operation :=
  .create temporary :: pieces.map (.append temporary)

/-- What a store does to get that file into the target's place. -/
def placeOperations (temporary target : Path) : List Operation :=
  [.setMode temporary fileMode, .rename temporary target]

/-- All that a store does. -/
def storeOperations (temporary target : Path) (pieces : List Bytes) : List Operation :=
  writeOperations temporary pieces ++ placeOperations temporary target

/-- A write that fails although the file could be opened, as on a full disk. -/
structure WriteFailure where
  /-- How many bytes the file took before. -/
  taken : Nat
  cause : FileError
  deriving DecidableEq, Repr

/-- Writes a sealed credential into the file beside the target, with the failure if the write fails;
the file then has a beginning of it. -/
def writeSealed (failure : Option WriteFailure) (t : FileTree) (temporary : Path) (sealed : Bytes) :
    Except FileError Unit × FileTree :=
  match failure with
  | none => applyAll (writeOperations temporary [sealed]) t
  | some f =>
    match applyAll (writeOperations temporary [sealed.take f.taken]) t with
    | (.error e, left) => (.error e, left)
    | (.ok (), left) => (.error f.cause, left)

/-- Puts a sealed credential at a path by way of another. A file that is written and cannot take the
target's place is removed, whether or not that succeeds; one that cannot be written is not. -/
def storeSealedWith (failure : Option WriteFailure) (t : FileTree) (temporary target : Path)
    (sealed : Bytes) : Except FileError Unit × FileTree :=
  match writeSealed failure t temporary sealed with
  | (.error e, left) => (.error e, left)
  | (.ok (), written) =>
    match applyAll (placeOperations temporary target) written with
    | (.ok (), stored) => (.ok (), stored)
    | (.error e, left) =>
      match left.remove temporary with
      | .ok cleaned => (.error e, cleaned)
      | .error _ => (.error e, left)

/-- Puts a sealed credential at a path on a disk that takes all that is written to an open file. -/
def storeSealed (t : FileTree) (temporary target : Path) (sealed : Bytes) :
    Except FileError Unit × FileTree :=
  storeSealedWith none t temporary target sealed

/-- Seals a credential under a new nonce and puts it at a path, with the failure if the write to the
file beside it fails. -/
def storeWith (failure : Option WriteFailure) (v : Vault) (plaintext : Bytes) (path : String)
    (h : Host) : Except CredentialError Unit × Host :=
  let (nonce, h) := h.draw
  match v.seal? nonce plaintext with
  | none => (.error .encrypt, h)
  | some sealed =>
    let target := Text.Utf8.encode path
    let (result, files) :=
      storeSealedWith failure h.files (temporaryPath target h.process h.stores) target sealed
    (result.mapError (.write path), { h with files := files, stores := h.stores + 1 })

/-- Seals a credential under a new nonce and puts it at a path. The disk takes all that is written to
an open file, so that a store fails only for its cipher or for a path. -/
def store (v : Vault) (plaintext : Bytes) (path : String) (h : Host) :
    Except CredentialError Unit × Host :=
  storeWith none v plaintext path h

/-! ## Loading -/

/-- Reads the credential at a path and opens it. -/
def load (v : Vault) (path : String) (files : FileTree) : Except CredentialError Bytes :=
  match files.lookup (Text.Utf8.encode path) with
  | .error e => .error (.read path e)
  | .ok .directory => .error (.isDirectory path)
  | .ok (.file _ sealed) => v.openSealed sealed path

end Vault

end PbxAgent
