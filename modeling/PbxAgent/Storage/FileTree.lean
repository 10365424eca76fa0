import PbxAgent.Storage.Path

/-!
# File trees

Directories and files as one value, and the operations on it with their errors. A place is where a
path leads to: the names on the way from the root.
-/

namespace PbxAgent.Storage

/-! ## Errors -/

/-- Why an operation failed. -/
inductive FileError where
  | notFound
  | notDirectory
  | isDirectory
  | nameTooLong
  /-- A place that cannot be replaced, such as a directory named through itself. -/
  | busy
  /-- A path with a zero byte in it. -/
  | zeroByte
  /-- Content that should have been text. -/
  | notText
  /-- A full disk. -/
  | noSpace
  | quotaExceeded
  /-- A disk that does not work. -/
  | inputOutput
  deriving DecidableEq, Repr

def FileError.message : FileError → String
  | notFound => "No such file or directory (os error 2)"
  | notDirectory => "Not a directory (os error 20)"
  | isDirectory => "Is a directory (os error 21)"
  | nameTooLong => "File name too long (os error 36)"
  | busy => "Device or resource busy (os error 16)"
  | zeroByte => "file name contained an unexpected NUL byte"
  | notText => "stream did not contain valid UTF-8"
  | noSpace => "No space left on device (os error 28)"
  | quotaExceeded => "Disk quota exceeded (os error 122)"
  | inputOutput => "Input/output error (os error 5)"

/-! ## Trees -/

/-- The names on the way from the root. -/
abbrev Place := List Name

/-- What is at a place. -/
inductive Entry where
  | directory
  | file (mode : Nat) (data : Bytes)
  deriving DecidableEq, Repr

/-- Places with what is at them. The root is a directory that is not listed. -/
structure FileTree where
  entries : List (Place × Entry) := []
  workingDirectory : Place := []
  deriving DecidableEq, Repr

namespace FileTree

/-- What is at a place. -/
def get? (t : FileTree) (p : Place) : Option Entry :=
  if p = [] then some .directory else (t.entries.find? (·.1 = p)).map (·.2)

/-- The tree without what was at a place. -/
def erase (t : FileTree) (p : Place) : FileTree :=
  { t with entries := t.entries.filter (·.1 ≠ p) }

/-- The tree with something at a place, whatever was there before. -/
def set (t : FileTree) (p : Place) (e : Entry) : FileTree :=
  { t with entries := (p, e) :: t.entries.filter (·.1 ≠ p) }

theorem get?_set_self {t : FileTree} {p : Place} (e : Entry) (h : p ≠ []) :
    (t.set p e).get? p = some e := by
  simp [get?, set, h]

theorem find?_filter_ne {entries : List (Place × Entry)} {p q : Place} (h : q ≠ p) :
    (entries.filter (·.1 ≠ p)).find? (·.1 = q) = entries.find? (·.1 = q) := by
  induction entries with
  | nil => rfl
  | cons x r ih =>
    by_cases hp : x.1 = p
    · have hq : x.1 ≠ q := by rw [hp]; exact Ne.symm h
      simp_all
    · by_cases hq : x.1 = q <;> simp_all

theorem get?_set_ne {t : FileTree} {p q : Place} (e : Entry) (h : q ≠ p) :
    (t.set p e).get? q = t.get? q := by
  have := @find?_filter_ne t.entries _ _ h
  by_cases hq : q = [] <;> simp_all [get?, set, Ne.symm h]

theorem get?_erase_ne {t : FileTree} {p q : Place} (h : q ≠ p) :
    (t.erase p).get? q = t.get? q := by
  have := @find?_filter_ne t.entries _ _ h
  by_cases hq : q = [] <;> simp_all [get?, erase]

theorem get?_erase_self {t : FileTree} {p : Place} (h : p ≠ []) : (t.erase p).get? p = none := by
  simp [get?, erase, h]

/-! ## Following paths -/

/-- The longest name. -/
def maxName : Nat := 255

/-- The longest path, and one byte more. -/
def maxPath : Nat := 4096

/-- Follows segments from a place, which must be a directory as long as there are any. -/
def walk (t : FileTree) : Place → List Name → Except FileError Place
  | p, [] => .ok p
  | p, n :: ns =>
    match t.get? p with
    | none => .error .notFound
    | some (.file ..) => .error .notDirectory
    | some .directory =>
      if Path.isIdle n then walk t p ns
      else if n = Path.dotDot then walk t p.dropLast ns
      else if maxName < n.length then .error .nameTooLong
      else match t.get? (p ++ [n]) with
      | none => .error .notFound
      | some _ => walk t (p ++ [n]) ns

/-- Refuses paths that lead nowhere whatever the tree. -/
def checkPath (path : Path) : Except FileError Unit :=
  if path.contains 0 then .error .zeroByte
  else if path = [] then .error .notFound
  else if maxPath ≤ path.length then .error .nameTooLong
  else .ok ()

/-- Where a path starts from. -/
def origin (t : FileTree) (path : Path) : Place :=
  if Path.isAbsolute path then [] else t.workingDirectory

/-- The place that a path leads to; there is something at it. -/
def locate (t : FileTree) (path : Path) : Except FileError Place := do
  checkPath path
  walk t (t.origin path) (Path.segments path)

/-- What a path leads to. -/
def lookup (t : FileTree) (path : Path) : Except FileError Entry := do
  match t.get? (← t.locate path) with
  | some e => return e
  | none => .error .notFound

/-- The last name of a path with the directory that it is in, whether or not there is something of
that name. -/
structure Slot where
  directory : Place
  name : Name
  /-- Whether slashes follow the name, as only a directory's may have. -/
  slashed : Bool
  deriving DecidableEq, Repr

/-- Whether the name is one that a directory can hold. -/
def Slot.isNamed (s : Slot) : Bool :=
  s.name ≠ [] && s.name ≠ Path.dot && s.name ≠ Path.dotDot

def Slot.place (s : Slot) : Place :=
  s.directory ++ [s.name]

/-- Finds the directory for a path's last name. -/
def slot (t : FileTree) (path : Path) : Except FileError Slot := do
  checkPath path
  let backwards := (Path.segments path).reverse
  match backwards.dropWhile (· = []) with
  | [] => return ⟨[], [], true⟩
  | name :: before =>
    let directory ← walk t (t.origin path) before.reverse
    match t.get? directory with
    | some .directory => return ⟨directory, name, backwards.head? = some []⟩
    | _ => .error .notDirectory

/-! ## Operations -/

/-- The content of a file. -/
def read (t : FileTree) (path : Path) : Except FileError Bytes := do
  match ← t.lookup path with
  | .file _ data => return data
  | .directory => .error .isDirectory

/-- The mode of a new file. -/
def defaultMode : Nat := 0o644

/-- Opens a file for writing: makes it, or empties it if there is one. -/
def create (t : FileTree) (path : Path) : Except FileError FileTree := do
  let s ← t.slot path
  if !s.isNamed || s.slashed then throw .isDirectory
  if maxName < s.name.length then throw .nameTooLong
  match t.get? s.place with
  | some .directory => .error .isDirectory
  | some (.file mode _) => return t.set s.place (.file mode [])
  | none => return t.set s.place (.file defaultMode [])

/-- Writes at the end of a file. -/
def append (t : FileTree) (path : Path) (data : Bytes) : Except FileError FileTree := do
  let p ← t.locate path
  match t.get? p with
  | some (.file mode old) => return t.set p (.file mode (old ++ data))
  | some .directory => .error .isDirectory
  | none => .error .notFound

/-- Sets the mode of a file. -/
def setMode (t : FileTree) (path : Path) (mode : Nat) : Except FileError FileTree := do
  let p ← t.locate path
  match t.get? p with
  | some (.file _ data) => return t.set p (.file mode data)
  | some .directory => return t
  | none => .error .notFound

/-- Takes away a file. -/
def remove (t : FileTree) (path : Path) : Except FileError FileTree := do
  let p ← t.locate path
  match t.get? p with
  | some (.file ..) => return t.erase p
  | some .directory => .error .isDirectory
  | none => .error .notFound

/-- Moves a file to another path, in place of a file that may be there. -/
def rename (t : FileTree) (source target : Path) : Except FileError FileTree := do
  let s ← t.slot source
  let d ← t.slot target
  if !s.isNamed || !d.isNamed then throw .busy
  match t.get? s.place with
  | none => .error .notFound
  | some .directory => .error .isDirectory
  | some (.file mode data) =>
    if maxName < d.name.length then throw .nameTooLong
    if s.slashed || d.slashed then throw .notDirectory
    match t.get? d.place with
    | some .directory => .error .isDirectory
    | _ => return (t.erase s.place).set d.place (.file mode data)

/-- Makes a directory. -/
def makeDirectory (t : FileTree) (path : Path) : Except FileError FileTree := do
  let s ← t.slot path
  if !s.isNamed || (t.get? s.place).isSome then throw .isDirectory
  return t.set s.place .directory

/-- Makes or replaces a file with some content. -/
def write (t : FileTree) (path : Path) (data : Bytes) : Except FileError FileTree := do
  (← t.create path).append path data

/-- What a directory holds, by name. -/
def list (t : FileTree) (path : Path) : Except FileError (List (Name × Entry)) := do
  let p ← t.locate path
  return t.entries.filterMap fun (q, e) =>
    match q.getLast? with
    | some n => if q.dropLast = p then some (n, e) else none
    | none => none

end FileTree

end PbxAgent.Storage
