import PbxAgent.Config
import PbxAgent.Toml.Document

/-!
# Configurations as documents

The tables of a configuration file. Whatever a file leaves out has its default; an identity, where
there is one, must say who the device is.
-/

namespace PbxAgent

open Toml (Reader Member)

namespace Config

/-- A member of a table that is read as text. -/
def textMember {σ : Type} (name : String) (put : String → σ → σ) : Member σ :=
  { name := name, read := fun v => (Toml.text v).map put }

/-- A member of a table that is read as a number; `type` names its range. -/
def naturalMember {σ : Type} (name type : String) (put : Nat → σ → σ) : Member σ :=
  { name := name, read := fun v => (Toml.natural type v).map put }

/-- A member that is a table of its own. -/
def tableMember {α σ : Type} (name : String) (read : Reader α) (put : α → σ → σ) : Member σ :=
  { name := name, read := fun v => (read v).map put }

def connectionMembers : List (Member ConnectionSettings) := [
  textMember "url" fun s c => { c with url := s },
  naturalMember "connect_timeout_secs" "u64" fun n c => { c with connectTimeout := n },
  naturalMember "reconnect_delay_secs" "u64" fun n c => { c with reconnectDelay := n },
  { name := "insecure_skip_verify",
    read := fun v => (Toml.flag v).map fun b c => { c with acceptAnyCertificate := b } }]

def connectionReader : Reader ConnectionSettings :=
  Toml.record "ConnectionConfig" {} connectionMembers

def vaultMembers : List (Member VaultSettings) := [
  textMember "sysclient_password_file" fun s c => { c with loginPasswordFile := s },
  textMember "admin_password_file" fun s c => { c with adminPasswordFile := s },
  textMember "secret_key" fun s c => { c with secret := s }]

def vaultReader : Reader VaultSettings :=
  Toml.record "VaultConfig" {} vaultMembers

def tunnelReader : Reader TunnelSettings :=
  Toml.record "TunnelConfig" {} [
    naturalMember "chunk_size" "usize" fun n c => { c with pieceSize := n }]

def loggingReader : Reader LoggingSettings :=
  Toml.record "LoggingConfig" {} [textMember "level" fun s c => { c with level := s }]

/-- The sections of a document. -/
def members : List (Member Config) := [
  tableMember "connection" connectionReader fun t c => { c with connection := t },
  tableMember "identity" Identity.decoder.toml fun t c => { c with identity := t },
  tableMember "vault" vaultReader fun t c => { c with vault := t },
  tableMember "tunnel" tunnelReader fun t c => { c with tunnel := t },
  tableMember "logging" loggingReader fun t c => { c with logging := t }]

/-- The whole configuration. -/
def reader : Reader Config :=
  Toml.record "Config" {} members

/-- Why a text is no configuration. -/
inductive Flaw where
  /-- It is no document. -/
  | malformed
  /-- It does not fit the tables. -/
  | mismatch (m : Schema.Mismatch)
  deriving DecidableEq, Repr

def Flaw.message : Flaw → String
  | malformed => "malformed document"
  | mismatch m => m.message Decimal.Binary64.plainText

/-- Reads a configuration. -/
def parse (text : List Char) : Except Flaw Config :=
  match Toml.parse text with
  | none => .error .malformed
  | some v => (reader v).mapError .mismatch

end Config

end PbxAgent
