import PbxAgent.Bytes

/-!
# Paths

A path is bytes with slashes between its segments. Empty segments and single dots mean nothing
where they stand; a double dot means the directory above.
-/

namespace PbxAgent.Storage

/-- A name in a directory. -/
abbrev Name := Bytes

/-- A path as written. -/
abbrev Path := Bytes

namespace Path

def slash : UInt8 := 0x2F
def dot : Name := [0x2E]
def dotDot : Name := [0x2E, 0x2E]

/-- The segments of a path; there is always one more than slashes. -/
def segments : Path → List Name
  | [] => [[]]
  | c :: r =>
    if c = slash then [] :: segments r
    else match segments r with
    | [] => [[c]]
    | s :: ss => (c :: s) :: ss

/-- The path with the segments given. -/
def join : List Name → Path
  | [] => []
  | [s] => s
  | s :: t :: r => s ++ slash :: join (t :: r)

theorem segments_ne_nil (p : Path) : segments p ≠ [] := by
  cases p with
  | nil => simp [segments]
  | cons c r =>
    simp only [segments]
    split
    · simp
    · split <;> simp

theorem join_segments (p : Path) : join (segments p) = p := by
  induction p with
  | nil => rfl
  | cons c r ih =>
    have hr := segments_ne_nil r
    cases h : segments r with
    | nil => exact absurd h hr
    | cons s ss =>
      by_cases hc : c = slash
      · subst hc; simp [segments, h, join] at *; simp [ih]
      · cases ss <;> simp_all [segments, join]

def isAbsolute (p : Path) : Bool :=
  p.head? = some slash

/-- Whether a segment means nothing where it stands. -/
def isIdle (s : Name) : Bool :=
  s = [] || s = dot

/-- Segments without those at the end that mean nothing. -/
def trimEnd (ss : List Name) : List Name :=
  (ss.reverse.dropWhile isIdle).reverse

/-- The directory that a path's last segment with a meaning is in, as written in front of it; the
root and the empty path have none. A dot that starts a path counts as a segment with a meaning. -/
def parent? (p : Path) : Option Path :=
  match segments p with
  | [] => none
  | first :: rest =>
    match trimEnd rest with
    | [] => if first = [] then none else some []
    | s :: ss =>
      match trimEnd ((s :: ss).dropLast) with
      | [] => if first = [] then some [slash] else some first
      | ts => some (join (first :: ts))

/-- A name in the directory that a path leads to. -/
def child (p : Path) (n : Name) : Path :=
  if p = [] then n else if p.getLast? = some slash then p ++ n else p ++ slash :: n

end Path

end PbxAgent.Storage
