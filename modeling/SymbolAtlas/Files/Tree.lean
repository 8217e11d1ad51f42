import SymbolAtlas.Files.Fault
import SymbolAtlas.Files.Path
import SymbolAtlas.Table
import SymbolAtlas.Text.Utf8

/-!
# File trees

Directories and files as a value. A place in a tree is the list of names on the way from the root,
and a path is walked to a place piece by piece, so that `..` leaves a directory that has to exist.
-/

namespace SymbolAtlas.Files

inductive Entry
  | directory
  | file (contents : Bytes)
  deriving DecidableEq

/-- The names on the way from the root. -/
abbrev Place := List String

/-- The entries of a file system by place, and the place that relative paths start from. The root
itself is always a directory. -/
structure Tree where
  entries : Table Place Entry
  workingDir : Place
  deriving Inhabited

namespace Tree

def get? (t : Tree) (place : Place) : Option Entry :=
  if place.isEmpty then some .directory else t.entries.get? place

/-- The tree whose only directories are those on the way to `place`, where relative paths start. -/
def emptyAt (place : Place) : Tree :=
  ⟨⟨(List.range place.length).map fun n => (place.take (n + 1), .directory)⟩, place⟩

/-- The tree with `entry` at `place`, in place of an older one. -/
def put (t : Tree) (place : Place) (entry : Entry) : Tree :=
  { t with entries := t.entries.set place entry }

def remove (t : Tree) (place : Place) : Tree :=
  { t with entries := t.entries.erase place }

/-- Putting an entry changes its place and no other. -/
theorem get?_put (t : Tree) (place q : Place) (entry : Entry) (hroot : place ≠ []) :
    (t.put place entry).get? q = if q = place then some entry else t.get? q := by
  by_cases hq : q = place
  · subst hq
    simp [get?, put, hroot, Table.get?_set]
  · simp [get?, put, hq, Table.get?_set]

/-- The most bytes that the name of a file may have. -/
def nameLimit : Nat :=
  255

/-- The most bytes that a path may have. -/
def pathLimit : Nat :=
  4095

/-- Walks `pieces` from `place`. Only a directory can be walked through; the last name need not
exist. -/
def walk (t : Tree) : Place → List String → Except Fault Place
  | place, [] => .ok place
  | place, piece :: rest =>
    match t.get? place with
    | none => .error .missing
    | some (.file _) => .error .notDirectory
    | some .directory =>
      if Path.isIdle piece then t.walk place rest
      else if piece = ".." then t.walk place.dropLast rest
      else if nameLimit < piece.utf8ByteSize then .error .nameTooLong
      else t.walk (place ++ [piece]) rest

def start (t : Tree) (p : Path) : Place :=
  if p.isAbsolute then [] else t.workingDir

/-- Whether a path can be looked up at all. -/
def checkPath (p : Path) : Except Fault Unit :=
  if p.text.toList.contains '\x00' then .error .nulInPath
  else if p.text.isEmpty then .error .missing
  else if pathLimit < p.text.utf8ByteSize then .error .nameTooLong
  else .ok ()

/-- The place that a path names. A slash at the end asks for a directory. -/
def place (t : Tree) (p : Path) : Except Fault Place := do
  checkPath p
  t.walk (t.start p) p.pieces

def find (t : Tree) (p : Path) : Except Fault Entry := do
  match t.get? (← t.place p) with
  | some entry => .ok entry
  | none => .error .missing

def present (t : Tree) (p : Path) : Bool :=
  (t.find p).toOption.isSome

def isFile (t : Tree) (p : Path) : Bool :=
  match t.find p with
  | .ok (.file _) => true
  | _ => false

def isDirectory (t : Tree) (p : Path) : Bool :=
  match t.find p with
  | .ok .directory => true
  | _ => false

/-! ## Reading and writing -/

def read (t : Tree) (p : Path) : Except Fault Bytes := do
  match ← t.find p with
  | .file contents => .ok contents
  | .directory => .error .isDirectory

/-- Reads a file that has to be UTF-8. -/
def readText (t : Tree) (p : Path) : Except Fault String := do
  match Text.textOfBytes? (← t.read p) with
  | some s => .ok s
  | none => .error .notText

/-- The directory that a path leads to, and the last piece of the path, which stands in it. Slashes
at the end do not count, and the last piece of the root is a step to itself. -/
def lastStep (t : Tree) (p : Path) : Except Fault (Place × String) := do
  checkPath p
  match p.pieces.reverse.dropWhile (·.isEmpty) with
  | [] => return (t.start p, ".")
  | last :: front =>
    let dir ← t.walk (t.start p) front.reverse
    match t.get? dir with
    | some .directory => return (dir, last)
    | some (.file _) => throw .notDirectory
    | none => throw .missing

/-- Whether a last piece only moves between directories. -/
def isMove (piece : String) : Bool :=
  piece == "." || piece == ".."

/-- Writes a file in an existing directory. A path that ends in a slash names no file. -/
def write (t : Tree) (p : Path) (contents : Bytes) : Except Fault Tree := do
  let (dir, name) ← t.lastStep p
  if isMove name || p.text.toList.getLast? = some '/' then throw .isDirectory
  if nameLimit < name.utf8ByteSize then throw .nameTooLong
  match t.get? (dir ++ [name]) with
  | some .directory => throw .isDirectory
  | _ => return t.put (dir ++ [name]) (.file contents)

/-- Makes one directory in an existing one. -/
def makeOne (t : Tree) (p : Path) : Except Fault Tree := do
  let (dir, name) ← t.lastStep p
  if isMove name then throw .fileExists
  if nameLimit < name.utf8ByteSize then throw .nameTooLong
  match t.get? (dir ++ [name]) with
  | some _ => throw .fileExists
  | none => return t.put (dir ++ [name]) .directory

end Tree

/-! ## Changes in several steps -/

/-- A change of the tree that can fail. What is done before it fails stays done. -/
abbrev Edit (ε α : Type) := ExceptT ε (StateM Tree) α

namespace Edit

/-- The tree that a change leaves. -/
def treeAfter {ε α : Type} (e : Edit ε α) (t : Tree) : Tree :=
  (e.run t).2

/-- A change that is made whole or not at all. -/
def whole {ε : Type} (f : Tree → Except ε Tree) : Edit ε Unit := fun t =>
  match f t with
  | .ok t => (.ok (), t)
  | .error e => (.error e, t)

/-- Makes one directory and says whether its parent was there. A directory that exists is as good as
one that is made. -/
def makeUnlessThere (p : Path) : Edit Fault Bool := fun t =>
  match t.makeOne p with
  | .ok t => (.ok true, t)
  | .error .missing => (.ok false, t)
  | .error fault =>
    if fault = .fileExists && t.isDirectory p then (.ok true, t) else (.error fault, t)

/-- Makes the first of some directories whose parent is there, and finds those that come before
it. -/
def makeNearest (passed : List Path) : List Path → Edit Fault (List Path)
  | [] => return passed
  | p :: rest => do
    if ← makeUnlessThere p then return passed
    makeNearest (p :: passed) rest

/-- Makes a directory whose parent has to be there. -/
def makeDirectory (p : Path) : Edit Fault Unit := do
  unless ← makeUnlessThere p do throw .missing

/-- Makes a directory with its missing parents, unless something stands at the path already. -/
def ensureDir (p : Path) : Edit Fault Unit := do
  if (← get).present p then return
  let missing ← makeNearest [] p.ancestors
  missing.forM makeDirectory

end Edit

namespace Tree

/-! ## Listing -/

/-- The names in a directory, sorted. -/
def children (t : Tree) (place : Place) : List String :=
  (t.entries.entries.filterMap fun (p, _) =>
    if p.dropLast = place then p.getLast? else none).mergeSort fun a b => decide (a ≤ b)

end Tree

end SymbolAtlas.Files
