import Mathlib
import PbxAgent.Config.Load
import PbxAgent.Proofs.Agent.Challenge
import PbxAgent.Proofs.Toml.Tables

/-!
# Settings of the environment and of the document

A setting that the environment gives counts as if the document had it (`load_as_written`), with one
exception: an identity in a document must have its id there, whatever the environment gives
(`reader_of_leavesIdOut`).
-/

namespace PbxAgent.Config

open Storage (FileTree)
open Text.Utf8 (encode decodeChars?)
open Toml (Value Member Placed TextSet Puts)

/-! ## Members -/

theorem puts_url : Puts connectionMembers (textMember "url" fun s c => { c with url := s })
    Toml.text fun s c => { c with url := s } :=
  .of_field ⟨by decide, rfl, rfl⟩ rfl
    (by simp [connectionMembers, textMember, naturalMember, Toml.commutes_of_put])

theorem puts_secret : Puts vaultMembers (textMember "secret_key" fun s c => { c with secret := s })
    Toml.text fun s c => { c with secret := s } :=
  .of_field ⟨by decide, rfl, rfl⟩ rfl (by simp [vaultMembers, textMember, Toml.commutes_of_put])

/-- The members of an identity in a document. -/
def identityMembers : List (Member Identity) :=
  Identity.members.map Schema.Decoder.memberToml

theorem puts_id : Puts identityMembers
    { name := "id", required := true, read := fun v => (Toml.text v).map fun s i => { i with id := s } }
    Toml.text fun s i => { i with id := s } :=
  .of_field ⟨by decide, rfl, rfl⟩ rfl
    (by simp [identityMembers, Identity.members, Schema.Decoder.memberToml, Schema.Decoder.map,
      Toml.commutes_of_put])

theorem puts_connection : Puts members
    (tableMember "connection" connectionReader fun t c => { c with connection := t })
    connectionReader fun t c => { c with connection := t } :=
  .of_field ⟨by decide, rfl, rfl⟩ rfl (by simp [members, tableMember, Toml.commutes_of_put])

theorem puts_vault : Puts members (tableMember "vault" vaultReader fun t c => { c with vault := t })
    vaultReader fun t c => { c with vault := t } :=
  .of_field ⟨by decide, rfl, rfl⟩ rfl (by simp [members, tableMember, Toml.commutes_of_put])

theorem puts_identity : Puts members
    (tableMember "identity" Identity.decoder.toml fun t c => { c with identity := t })
    Identity.decoder.toml fun t c => { c with identity := t } :=
  .of_field ⟨by decide, rfl, rfl⟩ rfl (by simp [members, tableMember, Toml.commutes_of_put])

/-! ## Settings in a document -/

/-- Whether a document is another one with a setting in one of its sections. The section may have been
missing, and the setting too; if not, it was a text before. -/
def SetIn (header key s : String) (v v' : Value) : Prop :=
  ∃ others inner inner' top top', header ∉ others.map Prod.fst
    ∧ (top = others ∧ inner = [] ∨ Placed header (.table inner) others top)
    ∧ Placed header (.table inner') others top'
    ∧ TextSet key s inner inner' ∧ v = .table top ∧ v' = .table top'

/-- Whether a document is another one with a setting, if there is any to be put in. -/
def Sets (header key : String) : Option String → Value → Value → Prop
  | none, v, v' => v' = v
  | some s, v, v' => SetIn header key s v v'

/-- Whether a document is another one with the settings of an environment. -/
def Written (e : Environment) (v v' : Value) : Prop :=
  ∃ v₁ v₂, Sets "identity" "id" e.id v v₁ ∧ Sets "connection" "url" e.url v₁ v₂
    ∧ Sets "vault" "secret_key" e.secret v₂ v'

/-- Whether a document has an identity without an id. -/
def LeavesIdOut (v : Value) : Prop :=
  ∃ top inner, v = .table top ∧ ("identity", .table inner) ∈ top ∧ "id" ∉ inner.map Prod.fst

variable {v v' : Value} {c : Config} {e : Environment}

theorem reader_sets_url {o : Option String} (h : Sets "connection" "url" o v v') :
    reader v' = .ok c ↔ ∃ d, reader v = .ok d ∧ d.override { url := o } = c := by
  cases o with
  | none =>
    obtain rfl : v' = v := h
    simp [override]
  | some s =>
    obtain ⟨others, inner, inner', top, top', absent, before, after, set, rfl, rfl⟩ := h
    refine puts_connection.set_table (f := fun t => { t with url := s }) (fun _ _ => rfl) rfl rfl rfl ?_
      absent before after
    intro t
    exact puts_url.set_text (fun _ _ _ => rfl) (.inr ⟨rfl, "", rfl⟩) set

theorem reader_sets_secret {o : Option String} (h : Sets "vault" "secret_key" o v v') :
    reader v' = .ok c ↔ ∃ d, reader v = .ok d ∧ d.override { secret := o } = c := by
  cases o with
  | none =>
    obtain rfl : v' = v := h
    simp [override]
  | some s =>
    obtain ⟨others, inner, inner', top, top', absent, before, after, set, rfl, rfl⟩ := h
    refine puts_vault.set_table (f := fun t => { t with secret := s }) (fun _ _ => rfl) rfl rfl rfl ?_
      absent before after
    intro t
    exact puts_secret.set_text (fun _ _ _ => rfl) (.inr ⟨rfl, "change-me", rfl⟩) set

/-! ## Identities in a document -/

/-- Without an id an identity is not read, nor is the document that it is in. -/
theorem reader_of_leavesIdOut (h : LeavesIdOut v) : reader v ≠ .ok c := by
  obtain ⟨top, inner, rfl, hmem, hid⟩ := h
  obtain ⟨l, r, rfl⟩ := List.append_of_mem hmem
  intro hread
  obtain ⟨us, hfills, -⟩ := Toml.fromTable_eq_ok.1 hread
  obtain ⟨_, _, -, hrest, -⟩ := Toml.fills_append.1 hfills
  obtain ⟨u, _, hidentity, -, -⟩ := (Toml.fills_cons puts_identity.stands.found).1 hrest
  obtain ⟨i, hi, -⟩ := puts_identity.read_eq_ok.1 hidentity
  exact Toml.fromTable_lacking puts_id.stands rfl hid hi

theorem stands_product : Toml.Stands identityMembers
    { name := "product", required := true,
      read := fun v => (Toml.text v).map fun s i => { i with product := s } } :=
  ⟨by decide, rfl, rfl⟩

/-- An identity that is an id and nothing else is not read. -/
theorem identity_of_textSet {s : String} {inner : List (String × Value)} {i : Identity}
    (set : TextSet "id" s [] inner) : Identity.decoder.toml (.table inner) ≠ .ok i := by
  obtain ⟨others, -, before, l, r, rfl, rfl⟩ := set
  have hnil : l ++ r = [] := by
    rcases before with hnil | ⟨old, l', r', -, hcons⟩
    · exact hnil.symm
    · simp at hcons
  obtain ⟨rfl, rfl⟩ := List.append_eq_nil_iff.1 hnil
  exact Toml.fromTable_lacking stands_product rfl (by simp)

/-- What comes of an id that is put in a document: it is the one that is read, unless there was an identity
without one, which is not read, or no identity, in which case there are not all of its members now. -/
theorem reader_setIn_id {s : String} (h : SetIn "identity" "id" s v v') :
    LeavesIdOut v
      ∨ (∀ c, reader v' = .ok c ↔ ∃ d, reader v = .ok d ∧ d.override { id := some s } = c)
      ∨ (∀ c, reader v' ≠ .ok c) ∧ ∀ d, reader v = .ok d → d.identity = {} := by
  obtain ⟨others, inner, inner', top, top', absent, before, after, set, rfl, rfl⟩ := h
  rcases before with ⟨rfl, rfl⟩ | before
  · refine .inr (.inr ⟨?_, ?_⟩)
    · intro c hread
      obtain ⟨u, _, hidentity, -⟩ := (Toml.fromTable_placed puts_identity.stands
        (puts_identity.independent_read _) absent after).1 hread
      obtain ⟨i, hi, -⟩ := puts_identity.read_eq_ok.1 hidentity
      exact identity_of_textSet set hi
    · intro d hread
      have hkeeps := Toml.fromTable_keeps puts_identity.stands (puts_identity.independent {}) rfl
        absent hread
      rw [← hkeeps]
  · by_cases hid : "id" ∈ inner.map Prod.fst
    · refine .inr (.inl fun c => puts_identity.replace (f := fun i => { i with id := s })
        (fun _ _ => rfl) ?_ absent before after)
      intro i
      exact puts_id.set_text (fun _ _ _ => rfl) (.inl hid) set
    · obtain ⟨l, r, -, rfl⟩ := before
      exact .inl ⟨_, inner, rfl, List.mem_append_right l List.mem_cons_self, hid⟩

/-! ## Documents in files -/

/-- Whether a file holds a document; where none is named, the one of the default name. -/
def Holds (path : Option String) (files : FileTree) (v : Value) : Prop :=
  ∃ content text, files.read (encode (path.getD defaultFile)) = .ok content
    ∧ decodeChars? content = some text ∧ Toml.parse text = some v

section
variable {path : Option String} {files files' : FileTree}

theorem resolve_eq_ok (holds : Holds path files v) :
    resolve path e files = .ok c ↔ ∃ d, reader v = .ok d ∧ d.override e = c := by
  obtain ⟨content, text, hread, htext, hparse⟩ := holds
  have hfile : fromFile (path.getD defaultFile) files
      = ((reader v).mapError Flaw.mismatch).mapError (.parse (path.getD defaultFile)) := by
    simp only [fromFile, hread, htext, parse, hparse]
  have hresolve : resolve path e files
      = fromFile (path.getD defaultFile) files >>= fun d => pure (d.override e) := by
    cases path with
    | some p => rfl
    | none =>
      -- What can be read is there.
      obtain ⟨entry, hlookup, -⟩ := bind_eq_ok.1 hread
      have there : isThere defaultFile files = true := by
        simp only [isThere]
        rw [show files.lookup (encode defaultFile) = .ok entry from hlookup]
      simp only [resolve, there]
      rfl
  rw [hresolve, hfile]
  simp only [bind_eq_ok, mapError_eq_ok, pure_eq_ok]

theorem load_eq_ok (holds : Holds path files v) :
    load path e files = .ok c
      ↔ ∃ d, reader v = .ok d ∧ (d.override e).validate = .ok () ∧ d.override e = c := by
  simp only [load, bind_eq_ok, exists_unit_eq_ok, mapError_eq_ok, pure_eq_ok, resolve_eq_ok holds]
  constructor
  · rintro ⟨_, ⟨d, hread, rfl⟩, valid, rfl⟩
    exact ⟨d, hread, valid, rfl⟩
  · rintro ⟨d, hread, valid, rfl⟩
    exact ⟨_, ⟨d, hread, rfl⟩, valid, rfl⟩

/-- With the settings in the document, what is loaded without the environment. -/
theorem load_of_written (holds : Holds path files v) (holds' : Holds path files' v')
    (hread : ∀ c, reader v' = .ok c ↔ ∃ d, reader v = .ok d ∧ d.override e = c) :
    load path e files = .ok c ↔ load path {} files' = .ok c := by
  rw [load_eq_ok holds, load_eq_ok holds']
  constructor
  · rintro ⟨d, hd, valid, rfl⟩
    exact ⟨_, (hread _).2 ⟨d, hd, rfl⟩, valid, rfl⟩
  · rintro ⟨_, hc, valid, rfl⟩
    obtain ⟨d, hd, rfl⟩ := (hread _).1 hc
    exact ⟨d, hd, valid, rfl⟩

/-- A configuration whose identity is the default one is not valid, whatever id the environment gives. -/
theorem not_valid_of_identity (h : c.identity = {}) : (c.override e).validate ≠ .ok () := by
  intro valid
  have product : (c.override e).identity.product ≠ "" := (complete_of_validate valid).product
  refine product ?_
  show c.identity.product = ""
  rw [h]

/-- **The environment counts as if the document had its settings.** Take any file that holds a document,
any settings of the environment, and any file that holds the document with these settings in it, in their
sections, wherever they stand there and whether or not there were others before. What is loaded from the one
under this environment and from the other under an empty one is the same configuration, or nothing in both
cases. The one exception is an identity without an id, to which the environment gives one: nothing is loaded
from a document with an identity that has no id. -/
theorem load_as_written {path : Option String} {files files' : FileTree} {v v' : Value} {e : Environment}
    (holds : Holds path files v) (holds' : Holds path files' v') (written : Written e v v') :
    (e.id = none ∨ ¬LeavesIdOut v → (load path e files).toOption = (load path {} files').toOption)
      ∧ (LeavesIdOut v → (load path e files).toOption = none) := by
  obtain ⟨url, secret, id⟩ := e
  obtain ⟨v₁, v₂, hid, hurl, hsecret⟩ := written
  have hrest : ∀ c, reader v' = .ok c
      ↔ ∃ d, reader v₁ = .ok d ∧ d.override { url := url, secret := secret } = c := by
    intro c
    simp only [reader_sets_secret hsecret, reader_sets_url hurl]
    constructor
    · rintro ⟨_, ⟨d, hd, rfl⟩, rfl⟩
      exact ⟨d, hd, rfl⟩
    · rintro ⟨d, hd, rfl⟩
      exact ⟨_, ⟨d, hd, rfl⟩, rfl⟩
  refine ⟨?_, ?_⟩
  · intro given
    refine toOption_congr fun c => ?_
    cases id with
    | none =>
      obtain rfl : v₁ = v := hid
      exact load_of_written holds holds' hrest
    | some id =>
      obtain hout | hread | ⟨hnone, hdefault⟩ := reader_setIn_id hid
      · simp [hout] at given
      · refine load_of_written holds holds' fun c => ?_
        simp only [hrest, hread]
        constructor
        · rintro ⟨_, ⟨d, hd, rfl⟩, rfl⟩
          exact ⟨d, hd, rfl⟩
        · rintro ⟨d, hd, rfl⟩
          exact ⟨_, ⟨d, hd, rfl⟩, rfl⟩
      · -- Without an identity in the document there is none of either: one is not valid, one not read.
        rw [load_eq_ok holds, load_eq_ok holds']
        refine iff_of_false ?_ ?_
        · rintro ⟨d, hd, valid, -⟩
          exact not_valid_of_identity (hdefault d hd) valid
        · rintro ⟨_, hc, -⟩
          obtain ⟨d, hd, -⟩ := (hrest _).1 hc
          exact hnone d hd
  · intro hout
    cases hload : load path ⟨url, secret, id⟩ files with
    | error error => rfl
    | ok c =>
      obtain ⟨d, hd, -⟩ := (load_eq_ok holds).1 hload
      exact absurd hd (reader_of_leavesIdOut hout)

end

/-- Files that hold a text under the default name. -/
def filesOf (text : String) : FileTree :=
  { entries := [([encode defaultFile], .file FileTree.defaultMode (encode text))] }

theorem holds_filesOf {text : String} (h : Toml.parse text.toList = some v) :
    Holds (some defaultFile) (filesOf text) v :=
  ⟨encode text, text.toList, rfl, Text.Utf8.decodeChars?_encodeChars _, h⟩

set_option maxRecDepth 1024 in
/-- An id that the environment gives in the place of another, and an address for which there was no
section, are loaded as from a document with both. -/
theorem load_as_written_overId :
    let document := "[identity]\nid = \"old\"\nproduct = \"pbx\"\nversion = \"1\"\n"
    let other := "connection.url = \"ws://pbx\"\n[identity]\nproduct = \"pbx\"\nversion = \"1\"\nid = \"new\"\n"
    let e : Environment := { url := some "ws://pbx", id := some "new" }
    (∃ v v', Holds (some defaultFile) (filesOf document) v
        ∧ Holds (some defaultFile) (filesOf other) v' ∧ Written e v v' ∧ ¬LeavesIdOut v)
      ∧ (load (some defaultFile) e (filesOf document)).toOption
        = (load (some defaultFile) {} (filesOf other)).toOption
      ∧ load (some defaultFile) {} (filesOf other) = .ok {
          connection := { url := "ws://pbx" }
          identity := { id := "new", product := "pbx", version := "1" } } := by
  intro document other e
  let product : String × Value := ("product", .text "pbx")
  let version : String × Value := ("version", .text "1")
  let id (s : String) : String × Value := ("id", .text s)
  let connection : String × Value := ("connection", .table [("url", .text "ws://pbx")])
  have hold : Toml.parse document.toList
      = some (.table [("identity", .table [id "old", product, version])]) := by cbv
  have hnew : Toml.parse other.toList
      = some (.table [connection, ("identity", .table [product, version, id "new"])]) := by cbv
  have written : Written e (.table [("identity", .table [id "old", product, version])])
      (.table [connection, ("identity", .table [product, version, id "new"])]) := by
    refine ⟨.table [("identity", .table [product, version, id "new"])], _, ?_, ?_, rfl⟩
    · exact ⟨[], _, _, _, _, by simp, .inr ⟨[], [], rfl, rfl⟩, ⟨[], [], rfl, rfl⟩,
        ⟨[product, version], by decide, .inr ⟨"old", [], [product, version], rfl, rfl⟩,
          [product, version], [], rfl, rfl⟩, rfl, rfl⟩
    · exact ⟨[("identity", .table [product, version, id "new"])], [], _, _, _, by simp,
        .inl ⟨rfl, rfl⟩, ⟨[], _, rfl, rfl⟩, ⟨[], by simp, .inl rfl, [], [], rfl, rfl⟩, rfl, rfl⟩
  have there : ¬LeavesIdOut (.table [("identity", .table [id "old", product, version])]) := by
    rintro ⟨top, inner, htop, hmem, hid⟩
    cases htop
    simp only [List.mem_singleton, Prod.mk.injEq, Value.table.injEq, true_and] at hmem
    subst hmem
    exact hid List.mem_cons_self
  refine ⟨⟨_, _, holds_filesOf hold, holds_filesOf hnew, written, there⟩, ?_, by decide +kernel⟩
  exact (load_as_written (holds_filesOf hold) (holds_filesOf hnew) written).1 (.inr there)

/-- An identity that has all but its id is loaded with the id in the document, and is not with the id in the
environment. -/
theorem load_notAsWritten :
    let document := "[identity]\nproduct = \"IP232\"\nversion = \"1\"\n"
    let other := "[identity]\nid = \"f19033480af9\"\nproduct = \"IP232\"\nversion = \"1\"\n"
    let e : Environment := { id := some "f19033480af9" }
    (∃ v v', Holds (some defaultFile) (filesOf document) v
        ∧ Holds (some defaultFile) (filesOf other) v' ∧ Written e v v')
      ∧ load (some defaultFile) e (filesOf document)
        = .error (.parse defaultFile (.mismatch (.missing "id")))
      ∧ load (some defaultFile) {} (filesOf other)
        = .ok { identity := { id := "f19033480af9", product := "IP232", version := "1" } } := by
  intro document other e
  let members : List (String × Value) := [("product", .text "IP232"), ("version", .text "1")]
  let id : String × Value := ("id", .text "f19033480af9")
  have hwithout : Toml.parse document.toList = some (.table [("identity", .table members)]) := by cbv
  have hwith : Toml.parse other.toList = some (.table [("identity", .table (id :: members))]) := by cbv
  have written : Written e (.table [("identity", .table members)])
      (.table [("identity", .table (id :: members))]) := by
    refine ⟨_, _, ?_, rfl, rfl⟩
    exact ⟨[], _, _, _, _, by simp, .inr ⟨[], [], rfl, rfl⟩, ⟨[], [], rfl, rfl⟩,
      ⟨members, by decide, .inl rfl, [], members, rfl, rfl⟩, rfl, rfl⟩
  exact ⟨⟨_, _, holds_filesOf hwithout, holds_filesOf hwith, written⟩, by decide +kernel,
    by decide +kernel⟩

end PbxAgent.Config
