import PbxAgent.Json.Value
import PbxAgent.Schema.Decoder

/-!
# The identity of the device

What the device tells the backend about itself. The names of the members and their order are part
of what the backend expects; a configuration file may write the longer names with underscores.
-/

namespace PbxAgent

/-- The hardware. -/
structure Platform where
  kind : String := ""
  fxs : Bool := false
  deriving DecidableEq, Repr

/-- A network interface. -/
structure Interface where
  name : String := ""
  ipv4 : String := ""
  ipv6 : String := ""
  deriving DecidableEq, Repr

/-- The device as it presents itself. An empty digest is none. -/
structure Identity where
  id : String := ""
  product : String := ""
  version : String := ""
  fwBuild : String := ""
  bcBuild : String := ""
  major : String := ""
  fw : String := ""
  bc : String := ""
  mini : Bool := false
  pbxActive : Bool := false
  other : Bool := false
  platform : Platform := {}
  digest : String := ""
  interfaces : List Interface := []
  deriving DecidableEq, Repr

namespace Identity

/-- The identity as it is before any challenge has been answered. -/
def withoutDigest (i : Identity) : Identity :=
  { i with digest := "" }

/-! ## Reading -/

open Schema (Decoder Member)

/-- The members of the hardware, in order. -/
def platformMembers : List (Member Decoder Platform) := [
  { name := "type", read := Decoder.text.map fun s p => { p with kind := s } },
  { name := "fxs", read := Decoder.flag.map fun b p => { p with fxs := b } }]

def platformDecoder : Decoder Platform :=
  .record "Platform" {} platformMembers

/-- The members of an interface, in order. -/
def interfaceMembers : List (Member Decoder Interface) := [
  { name := "if", required := true, read := Decoder.text.map fun s i => { i with name := s } },
  { name := "ipv4", read := Decoder.text.map fun s i => { i with ipv4 := s } },
  { name := "ipv6", read := Decoder.text.map fun s i => { i with ipv6 := s } }]

def interfaceDecoder : Decoder Interface :=
  .record "EthIf" {} interfaceMembers

/-- The members of an identity, in order. -/
def members : List (Member Decoder Identity) := [
  { name := "id", required := true, read := Decoder.text.map fun s i => { i with id := s } },
  { name := "product", required := true,
    read := Decoder.text.map fun s i => { i with product := s } },
  { name := "version", required := true,
    read := Decoder.text.map fun s i => { i with version := s } },
  { name := "fwBuild", aliases := ["fw_build"],
    read := Decoder.text.map fun s i => { i with fwBuild := s } },
  { name := "bcBuild", aliases := ["bc_build"],
    read := Decoder.text.map fun s i => { i with bcBuild := s } },
  { name := "major", read := Decoder.text.map fun s i => { i with major := s } },
  { name := "fw", read := Decoder.text.map fun s i => { i with fw := s } },
  { name := "bc", read := Decoder.text.map fun s i => { i with bc := s } },
  { name := "mini", read := Decoder.flag.map fun b i => { i with mini := b } },
  { name := "pbxActive", aliases := ["pbx_active"],
    read := Decoder.flag.map fun b i => { i with pbxActive := b } },
  { name := "other", read := Decoder.flag.map fun b i => { i with other := b } },
  { name := "platform", read := platformDecoder.map fun p i => { i with platform := p } },
  { name := "digest", read := Decoder.text.map fun s i => { i with digest := s } },
  { name := "ethIfs", aliases := ["eth_ifs"],
    read := interfaceDecoder.list.map fun es i => { i with interfaces := es } }]

def decoder : Decoder Identity :=
  .record "Identity" {} members

/-- Reads an identity from JSON text. -/
def parse (b : Bytes) : Except Json.Error Identity :=
  Json.parse decoder.json b

/-! ## Writing -/

/-- The hardware as a JSON value. -/
def Platform.json (p : Platform) : Json.Value :=
  .object [("type", .string p.kind), ("fxs", .flag p.fxs)]

/-- A network interface as a JSON value. -/
def Interface.json (i : Interface) : Json.Value :=
  .object [("if", .string i.name), ("ipv4", .string i.ipv4), ("ipv6", .string i.ipv6)]

/-- The members of an identity in order; an empty digest and an empty list of interfaces are left
out. -/
def jsonMembers (i : Identity) : List (String × Json.Value) :=
  [("id", .string i.id), ("product", .string i.product), ("version", .string i.version),
    ("fwBuild", .string i.fwBuild), ("bcBuild", .string i.bcBuild), ("major", .string i.major),
    ("fw", .string i.fw), ("bc", .string i.bc), ("mini", .flag i.mini),
    ("pbxActive", .flag i.pbxActive), ("other", .flag i.other),
    ("platform", Platform.json i.platform)]
  ++ (if i.digest = "" then [] else [("digest", .string i.digest)])
  ++ (if i.interfaces = [] then [] else [("ethIfs", .list (i.interfaces.map Interface.json))])

/-- The identity as a JSON value. -/
def json (i : Identity) : Json.Value :=
  .object i.jsonMembers

/-- The bytes of the identity's JSON text. -/
def bytes (i : Identity) : Bytes :=
  i.json.bytes

end Identity

end PbxAgent
