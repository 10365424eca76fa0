import PbxAgent.Proofs.Vault.Store

/-!
# Paths that are almost too long

A path may lead through a directory and back over and over (`detour`). The temporary file of a target at
the end of such a path is at the end of one as long, but for the two names, so that it can be up to the
number of a store whether it succeeds (`store_detour`).
-/

namespace PbxAgent.Vault

open Storage (FileTree Name Path Place)
open Storage.FileTree (IsFileName Slot)
open Text.Utf8 (encode encode_append)

/-- A way into a directory and back, so many times. -/
def detour : Nat → String
  | 0 => ""
  | k + 1 => "a/../" ++ detour k

/-- The names on that way. -/
def detourNames : Nat → List Name
  | 0 => []
  | k + 1 => encode "a" :: Path.dotDot :: detourNames k

variable {k : Nat} {n : Name} {t : FileTree}

theorem length_detour (k : Nat) : (encode (detour k)).length = 5 * k := by
  induction k with
  | zero => rfl
  | succ k ih =>
    have hstep : (encode "a/../").length = 5 := by decide
    rw [detour, encode_append, List.length_append, ih, hstep]
    omega

theorem segments_detour (k : Nat) (hn : Path.slash ∉ n) :
    Path.segments (encode (detour k) ++ n) = detourNames k ++ [n] := by
  induction k with
  | zero => exact Path.segments_of_not_mem hn
  | succ k ih =>
    have hstep : encode "a/../" = encode "a" ++ Path.slash :: (Path.dotDot ++ [Path.slash]) := by
      decide
    have ha : Path.segments (encode "a") = [encode "a"] := by decide
    have hdots : Path.segments Path.dotDot = [Path.dotDot] := by decide
    rw [detour, encode_append, hstep, List.append_assoc, List.append_assoc, List.cons_append,
      Path.segments_append_slash, List.append_assoc, List.singleton_append,
      Path.segments_append_slash, ih, ha, hdots]
    rfl

theorem zero_not_mem_detour (k : Nat) : 0 ∉ encode (detour k) := by
  induction k with
  | zero => decide
  | succ k ih =>
    rw [detour, encode_append, List.mem_append, not_or]
    exact ⟨by decide, ih⟩

/-- A detour through a directory leads back to where it began. -/
theorem walk_detourNames (hd : t.get? [encode "a"] = some .directory) (k : Nat) :
    t.walk [] (detourNames k) = .ok [] := by
  induction k with
  | zero => rfl
  | succ k ih =>
    have hin : t.enter [] (encode "a") = .ok [encode "a"] := by
      rw [FileTree.enter_name t.get?_nil (by decide) (by decide) (by decide)]
      simp only [List.nil_append, hd]
    have hback : t.enter [encode "a"] Path.dotDot = .ok [] := by
      rw [FileTree.enter, hd]
      rfl
    rw [detourNames, FileTree.walk_cons, hin, ok_bind, FileTree.walk_cons, hback, ok_bind, ih]

theorem isAbsolute_detour (k : Nat) (n : Name) :
    Path.isAbsolute (encode (detour (k + 1)) ++ n) = false := by
  rw [detour, encode_append]
  rfl

/-- A file at the end of a detour is in the directory that the detour leads back to. -/
theorem slot_detour (hd : t.get? [encode "a"] = some .directory) (root : t.workingDirectory = [])
    (hn : Path.slash ∉ n) (hne : n ≠ []) (hzero : 0 ∉ n)
    (short : 5 * (k + 1) + n.length < FileTree.maxPath) :
    t.slot (encode (detour (k + 1)) ++ n) = .ok ⟨[], n, false⟩ := by
  have hcheck : FileTree.checkPath (encode (detour (k + 1)) ++ n) = .ok () := by
    have hcontains : (encode (detour (k + 1)) ++ n).contains 0 = false := by
      rw [List.contains_eq_mem, decide_eq_false_iff_not, List.mem_append, not_or]
      exact ⟨zero_not_mem_detour (k + 1), hzero⟩
    rw [FileTree.checkPath, hcontains, if_neg Bool.false_ne_true,
      if_neg (List.append_ne_nil_of_right_ne_nil _ hne), List.length_append, length_detour,
      if_neg (Nat.not_le.2 short)]
  have horigin : t.origin (encode (detour (k + 1)) ++ n) = [] := by
    rw [FileTree.origin, isAbsolute_detour, if_neg Bool.false_ne_true, root]
  rw [FileTree.slot_of_segments (segments_detour (k + 1) hn) hne]
  refine FileTree.slotIn_of_walk false hcheck ?_ t.get?_nil
  rw [horigin]
  exact walk_detourNames hd (k + 1)

end PbxAgent.Vault
