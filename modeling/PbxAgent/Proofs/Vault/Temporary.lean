import PbxAgent.Proofs.Storage.Segments
import PbxAgent.Proofs.Storage.Slot
import PbxAgent.Proofs.Text.Utf8
import PbxAgent.Vault

/-!
# Temporary files

A store writes beside its target under a name of its own: a mark, the process and the number of the
store, in decimal. Such a name is one that a file can have (`isFileName_temporaryName`), and the path
is in the target's directory (`segments_temporaryPath`), where the file makes no difference to what the
target leads to (`lookup_target`).
-/

namespace PbxAgent

namespace Vault

open Storage (Path FileTree)
open Text.Utf8 (encode encode_append mem_encode_repr length_encode_repr)

/-! ## Names -/

variable (process : UInt32) (store : UInt64)

theorem temporaryName_eq : temporaryName process store
    = encode ".sysclient_tmp_" ++ (encode process.toNat.repr ++ ([0x5F] ++ encode store.toNat.repr))
    := by
  show encode (".sysclient_tmp_" ++ process.toNat.repr ++ "_" ++ store.toNat.repr) = _
  rw [encode_append, encode_append, encode_append, List.append_assoc, List.append_assoc]
  rfl

/-- The bytes of a temporary name are visible, and none is a slash. -/
theorem mem_temporaryName {c : UInt8} (h : c ∈ temporaryName process store) :
    c ≠ 0 ∧ c ≠ Path.slash := by
  have hall : ((encode ".sysclient_tmp_").all fun c => c ≠ 0 && c ≠ Path.slash) = true := by decide
  have hmark : ∀ c ∈ encode ".sysclient_tmp_", c ≠ 0 ∧ c ≠ Path.slash := by
    intro c hc
    have hc := List.all_eq_true.1 hall c hc
    simpa using hc
  have hdigit : ∀ n : Nat, c ∈ encode n.repr → c ≠ 0 ∧ c ≠ Path.slash := by
    intro n hc
    obtain ⟨hlo, -⟩ := mem_encode_repr hc
    constructor
    · rintro rfl
      exact absurd hlo (by decide)
    · rintro rfl
      exact absurd hlo (by decide)
  rw [temporaryName_eq, List.mem_append, List.mem_append, List.mem_append, List.mem_singleton] at h
  rcases h with h | h | rfl | h
  · exact hmark c h
  · exact hdigit _ h
  · decide
  · exact hdigit _ h

theorem slash_not_mem_temporaryName : Path.slash ∉ temporaryName process store :=
  fun h => (mem_temporaryName process store h).2 rfl

theorem length_temporaryName : (temporaryName process store).length
    = 16 + process.toNat.repr.length + store.toNat.repr.length := by
  have hmark : (encode ".sysclient_tmp_").length = 15 := by decide
  rw [temporaryName_eq, List.length_append, List.length_append, List.length_append,
    length_encode_repr, length_encode_repr, hmark, List.length_singleton]
  omega

theorem length_temporaryName_le : (temporaryName process store).length ≤ 46 := by
  have hp : process.toNat.repr.length ≤ 10 := by
    rw [Nat.length_repr_le_iff (by decide)]
    exact lt_of_lt_of_le process.toNat_lt (by decide)
  have hs : store.toNat.repr.length ≤ 20 := by
    rw [Nat.length_repr_le_iff (by decide)]
    exact lt_of_lt_of_le store.toNat_lt (by decide)
  rw [length_temporaryName]
  omega

theorem head?_temporaryName : (temporaryName process store).head? = some 0x2E := by
  have hmark : encode ".sysclient_tmp_" = 0x2E :: encode "sysclient_tmp_" := by decide
  rw [temporaryName_eq, hmark]
  rfl

theorem temporaryName_ne {n : Bytes} (h : n.head? ≠ some 0x2E) :
    [n] ≠ [temporaryName process store] := by
  intro heq
  rw [(List.cons.inj heq).1] at h
  exact h (head?_temporaryName process store)

theorem isFileName_temporaryName : FileTree.IsFileName (temporaryName process store) := by
  have hlen : 15 ≤ (temporaryName process store).length := by
    rw [length_temporaryName]
    omega
  refine ⟨?_, ?_, ?_, (length_temporaryName_le process store).trans (by decide)⟩
  · intro h
    simp [h] at hlen
  · intro h
    simp [h, Path.dot] at hlen
  · intro h
    simp [h, Path.dotDot] at hlen

/-! ## Paths -/

theorem temporaryPath_eq (target : Path) :
    temporaryPath target process store
      = Path.child (Path.directory target) (temporaryName process store) :=
  rfl

theorem isAbsolute_temporaryPath (target : Path) :
    Path.isAbsolute (temporaryPath target process store)
      = Path.isAbsolute (Path.directory target) := by
  rw [temporaryPath_eq, Path.isAbsolute_child (Path.directory_ne_nil target)]

/-- The temporary files of one target are all in one directory, that of the target. -/
theorem segments_temporaryPath (target : Path) :
    ∃ before, Path.trimEnd before = Path.trimEnd (Path.segments (Path.directory target))
      ∧ ∀ process store, Path.segments (temporaryPath target process store)
          = before ++ [temporaryName process store] := by
  obtain ⟨before, htrim, hchild⟩ := Path.segments_child (Path.directory_ne_nil target)
  exact ⟨before, htrim, fun process store =>
    hchild _ (slash_not_mem_temporaryName process store)⟩

/-- They are reached by the names in front of the target's last name. -/
theorem segments_temporaryPath_of_target {target : Path} {n : Bytes} {front idle : List Bytes}
    (hseg : Path.segments target = front ++ n :: idle) (hn : Path.isIdle n = false)
    (hidle : ∀ i ∈ idle, Path.isIdle i = true) :
    ∃ before, Path.trimEnd before = Path.trimEnd front ∧ ∀ process store,
      Path.isAbsolute (temporaryPath target process store) = Path.isAbsolute target
        ∧ Path.segments (temporaryPath target process store)
          = before ++ [temporaryName process store] := by
  obtain ⟨before, htrim, hsegments⟩ := segments_temporaryPath target
  obtain ⟨hdirectory, habsolute⟩ := Path.trimEnd_segments_directory hseg hn hidle
  refine ⟨before, htrim.trans hdirectory, ?_⟩
  intro process store
  exact ⟨(isAbsolute_temporaryPath process store target).trans habsolute, hsegments process store⟩

/-- The temporary file of a target without a directory written is in the working directory. -/
theorem temporaryPath_of_bare {target : Path} {n : Bytes} {idle : List Bytes}
    (h : Path.segments target = n :: idle) (hidle : ∀ i ∈ idle, Path.isIdle i = true) :
    temporaryPath target process store
      = Path.dot ++ Path.slash :: temporaryName process store := by
  rw [temporaryPath_eq, Path.directory_of_segments_bare h hidle]
  rfl

/-- The temporary file of a bare name is never out of the limits. -/
theorem checkPath_temporaryPath {target : Path} {n : Bytes} (h : Path.segments target = [n]) :
    FileTree.checkPath (temporaryPath target process store) = .ok () := by
  have hpath := temporaryPath_of_bare process store h (by simp)
  have hzero : (Path.dot ++ Path.slash :: temporaryName process store).contains 0 = false := by
    rw [List.contains_eq_mem, decide_eq_false_iff_not, List.mem_append, List.mem_cons]
    rintro (h | h | h)
    · exact absurd h (by decide)
    · exact absurd h (by decide)
    · exact (mem_temporaryName process store h).1 rfl
  have hlen := length_temporaryName_le process store
  unfold FileTree.checkPath
  rw [hpath, hzero, if_neg Bool.false_ne_true, if_neg (List.append_ne_nil_of_left_ne_nil (by decide) _),
    if_neg]
  simp only [Path.dot, FileTree.maxPath, List.length_append, List.length_cons, List.length_nil]
  omega

/-! ## What a temporary file does to its target -/

section
variable {process store} {t : FileTree} {target : Path} {s : FileTree.Slot}
  (hs : t.slot (temporaryPath target process store) = .ok s) (hf : s.HoldsFile)
include hs hf

/-- The temporary file of a target without a directory written needs the working directory. -/
theorem get?_workingDirectory_of_bare {n : Bytes} {idle : List Bytes}
    (htarget : Path.segments target = n :: idle) (hidle : ∀ i ∈ idle, Path.isIdle i = true) :
    t.get? t.workingDirectory = some .directory := by
  obtain ⟨-, hdirectory, before, hseg, hw⟩ := FileTree.slot_eq_ok hs hf
  rw [temporaryPath_of_bare process store htarget hidle] at hseg hw
  rw [Path.segments_append_slash,
    Path.segments_of_not_mem (slash_not_mem_temporaryName process store),
    List.append_singleton_inj] at hseg
  rw [← hseg.1] at hw
  have hdot : ∀ i ∈ Path.segments Path.dot, Path.isIdle i = true := by decide
  have hwd : s.directory = t.workingDirectory := FileTree.eq_of_walk_idle hdot hw
  rw [← hwd]
  exact hdirectory

theorem name_eq_temporaryName : s.name = temporaryName process store := by
  obtain ⟨before, -, hseg⟩ := segments_temporaryPath target
  obtain ⟨-, -, before', hseg', -⟩ := FileTree.slot_eq_ok hs hf
  rw [hseg, List.append_singleton_inj] at hseg'
  exact hseg'.2.symm

/-- What is done to a temporary file makes no difference to what its target leads to. -/
theorem lookup_target {u : FileTree} (changed : FileTree.ChangedAt s.place t u)
    (apart : Path.lastName? target ≠ some (temporaryName process store)) :
    u.lookup target = t.lookup target := by
  cases hlast : Path.lastName? target with
  | some n =>
    obtain ⟨front, idle, htarget, hn, hidle⟩ := Path.segments_of_lastName? hlast
    obtain ⟨before, htrim, htemporary⟩ := segments_temporaryPath_of_target htarget hn hidle
    obtain ⟨habsolute, hseg⟩ := htemporary process store
    obtain ⟨-, hdirectory, before', hseg', hw⟩ := FileTree.slot_eq_ok hs hf
    rw [hseg, List.append_singleton_inj] at hseg'
    obtain ⟨rfl, hname⟩ := hseg'
    have horigin : t.origin (temporaryPath target process store) = t.origin target := by
      rw [FileTree.origin, FileTree.origin, habsolute]
    rw [horigin] at hw
    have hne : n ≠ s.name := by
      rw [← hname]
      rintro rfl
      exact apart hlast
    exact changed.lookup_eq hdirectory htarget hidle
      (FileTree.walk_of_trimEnd hdirectory hw htrim.symm) hne
  | none =>
    -- Without a last name, the target leads to the root or to the working directory.
    have hidle := Path.idle_of_lastName?_eq_none hlast
    have horigin : t.get? (t.origin target) = some .directory := by
      unfold FileTree.origin
      split
      · exact t.get?_nil
      · obtain ⟨n, idle, htarget⟩ := List.exists_cons_of_ne_nil (Path.segments_ne_nil target)
        rw [htarget] at hidle
        exact get?_workingDirectory_of_bare hs hf htarget
          fun i hi => hidle i (List.mem_cons_of_mem n hi)
    exact changed.lookup_of_idle horigin hidle

end

end Vault

end PbxAgent
