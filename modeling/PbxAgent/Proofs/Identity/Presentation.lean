import Mathlib.Data.List.Nodup
import Mathlib.Data.List.Pairwise
import PbxAgent.Proofs.Identity.ReadBack

/-!
# Identities however they are presented

An identity is read from any object that has its members, whatever their order, whichever of its names each
has, and whatever else the object has besides; from an object that has a member twice, none is read
(`parse_presented`).
-/

namespace PbxAgent.Identity

open Json (Document Entry IsNumber IsValue Orderly Taken Value Written noBlanks noBlanks_append
  orderly_text orderly_flag orderly_list orderly_record)
open Schema (Decoder)

/-! ## Names -/

/-- The fields of an identity, by the names that they are written under. -/
def fields : List String :=
  ["id", "product", "version", "fwBuild", "bcBuild", "major", "fw", "bc", "mini", "pbxActive", "other",
    "platform", "digest", "ethIfs"]

/-- The names that a field is read under: four fields have one with underscores, too. -/
def spellings (field : String) : List String :=
  match field with
  | "fwBuild" => ["fwBuild", "fw_build"]
  | "bcBuild" => ["bcBuild", "bc_build"]
  | "pbxActive" => ["pbxActive", "pbx_active"]
  | "ethIfs" => ["ethIfs", "eth_ifs"]
  | name => [name]

theorem map_name_members : members.map (·.name) = fields := by
  decide

/-- A field's names are all read as that field. -/
theorem exists_find?_spelling {field name : String} (hfield : field ∈ fields)
    (hname : name ∈ spellings field) :
    ∃ m, members.find? (·.answersTo name) = some m ∧ m.name = field := by
  have hall : ∀ field ∈ fields, ∀ name ∈ spellings field,
      (members.find? (·.answersTo name)).map (·.name) = some field := by decide
  exact Option.map_eq_some_iff.1 (hall field hfield name hname)

/-- No other name is read as any field. -/
theorem find?_eq_none {name : String} (h : ∀ field ∈ fields, name ∉ spellings field) :
    members.find? (·.answersTo name) = none := by
  have hnames : ∀ m ∈ members, m.name :: m.aliases = spellings m.name := by decide
  rw [List.find?_eq_none]
  intro m hm answers
  refine h m.name (map_name_members ▸ List.mem_map_of_mem hm) ?_
  rw [← hnames m hm, List.mem_cons]
  simp only [Schema.Member.answersTo, Bool.or_eq_true, beq_iff_eq, List.contains_iff_mem] at answers
  exact answers.imp_left Eq.symm

/-- A field is read by the member that it is written for. -/
theorem find?_spelling (w : Written members) {name : String} (hkey : w.key = w.member.name)
    (hname : name ∈ spellings w.key) :
    members.find? (·.answersTo name) = some w.member := by
  have hmember := List.mem_of_find?_eq_some w.found
  have hfield : w.key ∈ fields := hkey ▸ map_name_members ▸ List.mem_map_of_mem hmember
  obtain ⟨m, hm, hkey'⟩ := exists_find?_spelling hfield hname
  have nodup : (members.map (·.name)).Nodup := by decide
  rw [hm, List.inj_on_of_nodup_map nodup (List.mem_of_find?_eq_some hm) hmember (hkey'.trans hkey)]

/-! ## Presentations -/

/-- Whether a member's key is a name of a field. -/
def Spells (e : Entry) (field : String) : Prop :=
  ∃ name ∈ spellings field, e.Named name

/-- Whether an object presents an identity: it has the members that the identity is written with, each
under any of its names, and others of no such names, all in any order. -/
def Presents (t : Document) (i : Identity) : Prop :=
  ∃ own others, t.entries.Perm (own ++ others)
    ∧ List.Forall₂ (fun m e => Spells e m.1 ∧ e.value = m.2.bytes) i.jsonMembers own
    ∧ ∀ e ∈ others, IsValue e.value ∧ ∃ name, e.Named name ∧ ∀ field ∈ fields, name ∉ spellings field

/-- Whether an object has a field twice. -/
def Repeats (t : Document) : Prop :=
  ∃ field ∈ fields, ∃ e f, [e, f].Sublist t.entries ∧ Spells e field ∧ Spells f field

/-! ## Readers -/

theorem orderly_platform : Orderly platformDecoder.json := by
  refine orderly_record ?_
  simp only [platformMembers, List.forall_mem_cons]
  exact ⟨orderly_text.map _, orderly_flag.map _, nofun⟩

theorem orderly_interface : Orderly interfaceDecoder.json := by
  refine orderly_record ?_
  simp only [interfaceMembers, List.forall_mem_cons]
  exact ⟨orderly_text.map _, orderly_text.map _, orderly_text.map _, nofun⟩

theorem orderly_members : ∀ m ∈ members, Orderly m.read.json := by
  have text := fun f : String → Identity → Identity => orderly_text.map f
  have flag := fun f : Bool → Identity → Identity => orderly_flag.map f
  have interfaces := orderly_list orderly_interface
  simp only [members, List.forall_mem_cons]
  exact ⟨text _, text _, text _, text _, text _, text _, text _, text _, flag _, flag _, flag _,
    orderly_platform.map _, text _, interfaces.map _, nofun⟩

theorem orderly_decoder : Orderly decoder.json :=
  orderly_record orderly_members

/-! ## Reading a presentation -/

variable (i : Identity)

/-- What the members of an identity do to it may be done in any order. -/
theorem commute_writtenMembers : ∀ w ∈ i.writtenMembers, ∀ v ∈ i.writtenMembers, ∀ s,
    v.update (w.update s) = w.update (v.update s) := by
  -- Two members put what they have into two fields, and one member the same twice.
  have hpairs : i.writtenMembers.Pairwise fun w v => ∀ s,
      v.update (w.update s) = w.update (v.update s) := by
    unfold writtenMembers
    split
    · split <;> simp
    · split <;> simp
  intro w hw v hv
  have : Std.Symm fun w v : Written members =>
      ∀ s, v.update (w.update s) = w.update (v.update s) := ⟨fun _ _ h s => (h s).symm⟩
  exact hpairs.forall_of_forall (fun _ _ _ => rfl) hw hv

theorem key_writtenMembers : ∀ w ∈ i.writtenMembers, w.key = w.member.name := by
  unfold writtenMembers
  split
  · split <;> simp
  · split <;> simp

variable {i} {t : Document}

/-- A member under any name of a field, with the value that is written for the field, is taken for it. -/
theorem taken_of_spells {w : Written members} {e : Entry} (hkey : w.key = w.member.name)
    (spells : Spells e w.key) (hvalue : e.value = w.value.bytes) : Taken members e (some w) := by
  obtain ⟨name, hname, named⟩ := spells
  have found := find?_spelling w hkey hname
  have horderly := orderly_members w.member (List.mem_of_find?_eq_some found)
  refine .own named found fun r => ?_
  rw [horderly.blanks, hvalue]
  exact w.reads r

theorem parse_of_presents (h : Presents t i) : parse t.bytes = .ok i := by
  obtain ⟨own, others, perm, hown, hothers⟩ := h
  rw [← map_pair_writtenMembers, List.forall₂_map_left_iff] at hown
  have taken : List.Forall₂ (fun e w => Taken members e (some w)) own i.writtenMembers := by
    have hall := (List.forall₂_and_left _ _).2 ⟨i.key_writtenMembers, hown⟩
    exact (hall.imp fun w e h => taken_of_spells h.1 h.2.1 h.2.2).flip
  have unknown : ∀ e ∈ others, Taken members e none := by
    intro e he
    obtain ⟨value, name, named, hname⟩ := hothers e he
    exact .other named (find?_eq_none hname) value
  have hread : decoder.json (t.object ++ t.behind.1)
      = .ok (i.writtenMembers.foldl (fun j w => w.update j) {}, t.behind.1) :=
    Json.record_perm perm taken unknown i.nodup_writtenMembers i.complete_writtenMembers
      i.commute_writtenMembers t.gap t.behind.1
  rw [foldl_update_writtenMembers] at hread
  exact (Document.parse_eq_ok orderly_decoder t).2 ⟨_, hread, t.skipBlank_behind⟩

/-- A member whose key spells a field fills it. -/
theorem Spells.fills {e : Entry} {field : String} (h : Spells e field) (hfield : field ∈ fields) :
    e.Fills (members.map Decoder.memberJson) field := by
  obtain ⟨name, hname, named⟩ := h
  obtain ⟨m, found, hm⟩ := exists_find?_spelling hfield hname
  refine ⟨name, Decoder.memberJson m, named, ?_, hm⟩
  rw [Json.find?_memberJson, found, Option.map_some]

theorem parse_of_repeats (wellFormed : t.WellFormed) (h : Repeats t) :
    ∃ e, parse t.bytes = .error e := by
  cases hparse : parse t.bytes with
  | error e => exact ⟨e, rfl⟩
  | ok j =>
    obtain ⟨rest, hread, -⟩ := (Document.parse_eq_ok orderly_decoder t).1 hparse
    have hpairwise := (Json.record_object_extent (Json.orderly_membersJson orderly_members)
      (fun e he => (wellFormed e he).1) (fun e he => (wellFormed e he).2) hread).2
    obtain ⟨field, hfield, e, f, hsub, hspells, hspells'⟩ := h
    have hpair := List.pairwise_pair.1 (hpairwise.sublist hsub)
    exact absurd (hspells'.fills hfield) (hpair field (hspells.fills hfield))

/-- The text that an identity is written as presents it. -/
theorem exists_presents_bytes (i : Identity) : ∃ t : Document, t.bytes = i.bytes ∧ Presents t i := by
  have hspells : ∀ field, field ∈ spellings field := by
    intro field
    unfold spellings
    split <;> simp
  refine ⟨⟨noBlanks, i.jsonMembers.map fun m => .plain m.1 m.2.bytes, noBlanks, noBlanks⟩, ?_, ?_⟩
  · rw [Document.bytes, Document.object, ← Json.bytes_object_enclose, noBlanks_append]
    exact List.append_nil _
  · refine ⟨i.jsonMembers.map fun m => .plain m.1 m.2.bytes, [], ?_, ?_, fun _ he => absurd he List.not_mem_nil⟩
    · rw [List.append_nil]
    · rw [List.forall₂_map_right_iff, List.forall₂_same]
      exact fun m _ => ⟨⟨m.1, hspells m.1, Entry.named_plain m.1 _⟩, rfl⟩

/-- **An identity is read alike however it is presented**: from the text that it is written as, and from any
object that has the same members in any order, each under any of its names, with any values among them
under names that are none of an identity's. No identity is read from an object that has a field twice. -/
theorem parse_presented :
    (∀ i : Identity, ∃ t : Document, t.bytes = i.bytes ∧ Presents t i)
      ∧ (∀ (i : Identity) (t : Document), Presents t i → parse t.bytes = .ok i)
      ∧ ∀ t : Document, t.WellFormed → Repeats t → ∃ e, parse t.bytes = .error e :=
  ⟨exists_presents_bytes, fun _ _ => parse_of_presents, fun _ => parse_of_repeats⟩

/-- Members the other way round, four of them under their other names, and a list with a negative fraction
among them; and a field under both of its names. -/
theorem parse_presented_reversed :
    parse (Document.bytes {
        front := noBlanks
        entries := .plain "extra" [0x5B, 0x2D, 0x31, 0x2E, 0x35, 0x5D] :: List.reverse [
          .plain "id" (Value.string "me").bytes, .plain "product" (Value.string "box").bytes,
          .plain "version" (Value.string "1").bytes, .plain "fw_build" (Value.string "7").bytes,
          .plain "bc_build" (Value.string "8").bytes, .plain "major" (Value.string "").bytes,
          .plain "fw" (Value.string "").bytes, .plain "bc" (Value.string "").bytes,
          .plain "mini" (Value.flag false).bytes, .plain "pbx_active" (Value.flag true).bytes,
          .plain "other" (Value.flag false).bytes, .plain "platform" (Platform.json {}).bytes,
          .plain "eth_ifs" (Value.list [Interface.json { name := "eth0" }]).bytes]
        gap := noBlanks
        behind := noBlanks })
      = .ok {
        id := "me", product := "box", version := "1", fwBuild := "7", bcBuild := "8",
        pbxActive := true, interfaces := [{ name := "eth0" }] }
    ∧ ∃ e, parse (Document.bytes {
        front := noBlanks
        entries := [.plain "fwBuild" (Value.string "7").bytes, .plain "fw_build" (Value.string "7").bytes]
        gap := noBlanks
        behind := noBlanks }) = .error e := by
  have spells : ∀ {field name : String} (b : Bytes), name ∈ spellings field →
      Spells (.plain name b) field := fun b h => ⟨_, h, Entry.named_plain _ b⟩
  constructor
  · refine parse_presented.2.1 _ _ ⟨_, [_],
      ((List.reverse_perm _).cons _).trans (List.perm_append_singleton _ _).symm, ?_, ?_⟩
    · repeat' first | exact .nil | refine .cons ⟨spells _ (by decide), rfl⟩ ?_
    · rw [List.forall_mem_singleton]
      have hnumber : IsNumber [0x31, 0x2E, 0x35] :=
        .parts (.digits ⟨[0x31], nofun, List.forall_mem_singleton.2 rfl⟩ (by decide))
          (.digits ⟨[0x35], nofun, List.forall_mem_singleton.2 rfl⟩) .none
      have hvalue : IsValue (Json.Bracket.list.enclose [.plain (0x2D :: [0x31, 0x2E, 0x35])] noBlanks) :=
        .list (List.forall_mem_singleton.2 (.scalar (.negative hnumber))) noBlanks
      exact ⟨hvalue, "extra", Entry.named_plain _ _, by decide⟩
  · refine parse_presented.2.2 _ ?_ ⟨"fwBuild", by decide, _, _, .refl _, spells _ (by decide),
      spells _ (by decide)⟩
    simp only [Document.WellFormed, List.forall_mem_cons]
    exact ⟨⟨Json.stringBody_escaped _, Value.isValue _⟩, ⟨Json.stringBody_escaped _, Value.isValue _⟩,
      nofun⟩

end PbxAgent.Identity
