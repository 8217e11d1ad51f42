/-!
# Paths

A path is kept as it is written. Joining and taking parts look at the text only; what a path names is
up to the tree it is looked up in.
-/

namespace SymbolAtlas.Files

structure Path where
  text : String
  deriving DecidableEq, Inhabited

namespace Path

def isAbsolute (p : Path) : Bool :=
  p.text.toList.head? == some '/'

/-- The pieces between slashes, empty ones included. -/
def pieces (p : Path) : List String :=
  (p.text.toList.splitOn '/').map String.ofList

/-- The path `rest` below `p`. An absolute `rest` stands alone, and nothing goes before it in an
empty path. -/
def join (p : Path) (rest : String) : Path :=
  if rest.toList.head? = some '/' || p.text.isEmpty then ⟨rest⟩
  else if p.text.toList.getLast? = some '/' then ⟨p.text ++ rest⟩
  else ⟨p.text ++ "/" ++ rest⟩

/-- A piece that names nothing: between two slashes, or the directory itself. -/
def isIdle (piece : String) : Bool :=
  piece.isEmpty || piece == "."

/-- The last piece that names something, unless it is the step to the parent directory. -/
def fileName? (p : Path) : Option String :=
  match (p.pieces.filter (!isIdle ·)).getLast? with
  | some piece => if piece == ".." then none else some piece
  | none => none

/-- Drops idle pieces at the end. -/
def dropIdleEnd (pieces : List String) : List String :=
  (pieces.reverse.dropWhile isIdle).reverse

/-- The path without its last named piece. The root and the empty path have no parent. -/
def parent? (p : Path) : Option Path :=
  match p.pieces with
  | [] => none
  | first :: rest =>
    match dropIdleEnd rest with
    | [] => if first.isEmpty then none else some ⟨""⟩
    | kept =>
      match dropIdleEnd kept.dropLast with
      | [] => some ⟨if first.isEmpty then "/" else first⟩
      | front => some ⟨"/".intercalate (first :: front)⟩

/-- The first `count` of a path and its parents, the nearest first. The root and the empty path are
left out. -/
def firstAncestors : Nat → Path → List Path
  | 0, _ => []
  | count + 1, p =>
    match p.parent? with
    | some parent => p :: firstAncestors count parent
    | none => []

/-- The path and its parents, the nearest first, without the root and the empty path. Each is shorter
than the one before. -/
def ancestors (p : Path) : List Path :=
  firstAncestors p.text.length p

end Path

end SymbolAtlas.Files
