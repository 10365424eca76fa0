import PbxAgent.Identity
import PbxAgent.Proofs.Json.Members

/-!
# Identities read back

An identity is read as it was written (`parse_bytes`), and its text is that of one JSON value, from
which the empty digest and the empty list of interfaces are left out (`json_round_trip`).
-/

namespace PbxAgent.Identity

open Json (Reads Written reads_text reads_flag reads_list reads_record)

theorem reads_platform (p : PbxAgent.Platform) : Reads platformDecoder.json (Platform.json p) p := by
  let written : List (Written platformMembers) := [
    ⟨_, "type", .string p.kind, _, rfl, (reads_text p.kind).map _⟩,
    ⟨_, "fxs", .flag p.fxs, _, rfl, (reads_flag p.fxs).map _⟩]
  have names : written.map (·.member.name) = ["type", "fxs"] := rfl
  exact reads_record written names (by decide) (by decide)

theorem reads_interface (i : PbxAgent.Interface) :
    Reads interfaceDecoder.json (Interface.json i) i := by
  let written : List (Written interfaceMembers) := [
    ⟨_, "if", .string i.name, _, rfl, (reads_text i.name).map _⟩,
    ⟨_, "ipv4", .string i.ipv4, _, rfl, (reads_text i.ipv4).map _⟩,
    ⟨_, "ipv6", .string i.ipv6, _, rfl, (reads_text i.ipv6).map _⟩]
  have names : written.map (·.member.name) = ["if", "ipv4", "ipv6"] := rfl
  exact reads_record written names (by decide) (by decide)

variable (i : Identity)

/-- The members of an identity as they are written. -/
def writtenMembers : List (Written members) := [
  ⟨_, "id", .string i.id, _, rfl, (reads_text i.id).map _⟩,
  ⟨_, "product", .string i.product, _, rfl, (reads_text i.product).map _⟩,
  ⟨_, "version", .string i.version, _, rfl, (reads_text i.version).map _⟩,
  ⟨_, "fwBuild", .string i.fwBuild, _, rfl, (reads_text i.fwBuild).map _⟩,
  ⟨_, "bcBuild", .string i.bcBuild, _, rfl, (reads_text i.bcBuild).map _⟩,
  ⟨_, "major", .string i.major, _, rfl, (reads_text i.major).map _⟩,
  ⟨_, "fw", .string i.fw, _, rfl, (reads_text i.fw).map _⟩,
  ⟨_, "bc", .string i.bc, _, rfl, (reads_text i.bc).map _⟩,
  ⟨_, "mini", .flag i.mini, _, rfl, (reads_flag i.mini).map _⟩,
  ⟨_, "pbxActive", .flag i.pbxActive, _, rfl, (reads_flag i.pbxActive).map _⟩,
  ⟨_, "other", .flag i.other, _, rfl, (reads_flag i.other).map _⟩,
  ⟨_, "platform", Platform.json i.platform, _, rfl, (reads_platform i.platform).map _⟩]
  ++ (if i.digest = "" then [] else
    [⟨_, "digest", .string i.digest, _, rfl, (reads_text i.digest).map _⟩])
  ++ (if i.interfaces = [] then [] else
    [⟨_, "ethIfs", .list (i.interfaces.map Interface.json), _, rfl,
      (reads_list fun e _ => reads_interface e).map _⟩])

theorem map_pair_writtenMembers : i.writtenMembers.map Written.pair = i.jsonMembers := by
  unfold writtenMembers jsonMembers
  split
  · split
    · rfl
    · rfl
  · split
    · rfl
    · rfl

theorem map_name_writtenMembers : i.writtenMembers.map (·.member.name)
    = ["id", "product", "version", "fwBuild", "bcBuild", "major", "fw", "bc", "mini", "pbxActive",
        "other", "platform"]
      ++ (if i.digest = "" then [] else ["digest"])
      ++ (if i.interfaces = [] then [] else ["ethIfs"]) := by
  unfold writtenMembers
  split
  · split
    · rfl
    · rfl
  · split
    · rfl
    · rfl

theorem foldl_update_writtenMembers :
    i.writtenMembers.foldl (fun j w => w.update j) {} = i := by
  obtain ⟨id, product, version, fwBuild, bcBuild, major, fw, bc, mini, pbxActive, other, platform,
    digest, interfaces⟩ := i
  unfold writtenMembers
  split
  next hd =>
    cases hd
    split
    next hi =>
      cases hi
      rfl
    · rfl
  · split
    next hi =>
      cases hi
      rfl
    · rfl

theorem nodup_writtenMembers : (i.writtenMembers.map (·.member.name)).Nodup := by
  rw [map_name_writtenMembers]
  split <;> split <;> decide

theorem complete_writtenMembers : ∀ m ∈ members, m.required = true →
    m.name ∈ i.writtenMembers.map (·.member.name) := by
  rw [map_name_writtenMembers]
  split <;> split <;> decide

theorem reads_json : Reads decoder.json i.json i := by
  have hreads : Reads decoder.json (.object (i.writtenMembers.map Written.pair))
      (i.writtenMembers.foldl (fun j w => w.update j) {}) :=
    reads_record i.writtenMembers rfl i.nodup_writtenMembers i.complete_writtenMembers
  rw [map_pair_writtenMembers, foldl_update_writtenMembers] at hreads
  exact hreads

theorem parse_bytes : parse i.bytes = .ok i :=
  Json.parse_bytes i.reads_json

/-! ## What is written -/

theorem nodup_keys_jsonMembers : (i.jsonMembers.map Prod.fst).Nodup := by
  by_cases hd : i.digest = ""
  · by_cases hi : i.interfaces = []
    · simp [jsonMembers, hd, hi]
    · simp [jsonMembers, hd, hi]
  · by_cases hi : i.interfaces = []
    · simp [jsonMembers, hd, hi]
    · simp [jsonMembers, hd, hi]

theorem digest_mem_jsonMembers {v : Json.Value} :
    ("digest", v) ∈ i.jsonMembers ↔ i.digest ≠ "" ∧ v = .string i.digest := by
  by_cases hd : i.digest = ""
  · simp [jsonMembers, hd]
  · simp [jsonMembers, hd]

theorem ethIfs_mem_jsonMembers {v : Json.Value} :
    ("ethIfs", v) ∈ i.jsonMembers
      ↔ i.interfaces ≠ [] ∧ v = .list (i.interfaces.map Interface.json) := by
  by_cases hi : i.interfaces = []
  · simp [jsonMembers, hi]
  · simp [jsonMembers, hi]

/-- An identity is read as it was written. The text is that of one JSON value alone, an object that
has no member twice, a digest just if the identity has one, and interfaces just if it has any.
Whatever text an identity was read from, it is read again from the text that it is written as. -/
theorem json_round_trip (i : Identity) :
    parse i.bytes = .ok i
      ∧ (∃ ms, (∀ v : Json.Value, v.bytes = i.bytes ↔ v = .object ms)
        ∧ (ms.map Prod.fst).Nodup
        ∧ (∀ v, ("digest", v) ∈ ms ↔ i.digest ≠ "" ∧ v = .string i.digest)
        ∧ ∀ v, ("ethIfs", v) ∈ ms
          ↔ i.interfaces ≠ [] ∧ v = .list (i.interfaces.map Interface.json))
      ∧ ∀ b, (parse b >>= fun j => parse j.bytes) = parse b := by
  have hvalue : ∀ v : Json.Value, v.bytes = i.bytes ↔ v = .object i.jsonMembers := by
    intro v
    exact Json.Value.bytes_injective.eq_iff
  refine ⟨parse_bytes i, ⟨i.jsonMembers, hvalue, nodup_keys_jsonMembers i,
    fun _ => digest_mem_jsonMembers i, fun _ => ethIfs_mem_jsonMembers i⟩, ?_⟩
  intro b
  cases hparse : parse b with
  | error e => rfl
  | ok j => exact parse_bytes j

end PbxAgent.Identity
