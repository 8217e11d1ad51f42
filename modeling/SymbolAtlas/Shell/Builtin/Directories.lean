import SymbolAtlas.Shell.Builtin.Options

namespace SymbolAtlas.Shell

open Files Activity

/-- The path of a directory, not through other names. -/
def physicalPath (place : Place) : String :=
  ofText ("/" ++ "/".intercalate (Machine.resolved place))

/-- The path that `path` leads to from the path `here`, step by step. -/
def walkedPath (here path : String) : String :=
  let isAbsolute := path.startsWith "/"
  let base := if isAbsolute then path else here
  let root := if base.startsWith "//" && !base.startsWith "///" then "//" else "/"
  let pieces := (if isAbsolute then [] else here.toList.splitOn '/') ++ path.toList.splitOn '/'
  let steps := pieces.foldl (fun (steps : List (List Char)) piece =>
    if piece.isEmpty || piece = ['.'] then steps
    else if piece = ['.', '.'] then steps.dropLast
    else steps ++ [piece]) []
  root ++ String.ofList (['/'].intercalate steps)

/-- The options of both commands: whether paths lead through other names. -/
def isPhysical (letters : List Char) : Bool :=
  letters.getLast? = some 'P'

/-- Enters a directory, and tells whether that has worked. -/
def enterDirectory (physical : Bool) (path : String) : Activity Bool := do
  let s ← get
  let walked := if physical then path else walkedPath s.directory path
  match s.files.place ⟨toText walked⟩ with
  | .error _ => return false
  | .ok place =>
    if s.files.get? place ≠ some .directory then return false
    let directory := if physical then physicalPath place else walked
    set { s with files := { s.files with workingDir := place } }
    assign "OLDPWD" s.directory
    changeVariable "OLDPWD" fun v => { v with exported := true }
    modify fun s => { s with directory, tracked := s.tracked.map ({ · with stale := true }) }
    assign "PWD" directory
    changeVariable "PWD" fun v => { v with exported := true }
    return true

/-- The path in the first of some directories that has a directory of that name, and whether that is
not the working directory. -/
def searchedDirectory (t : Tree) (name : String) : List String → Option (String × Bool)
  | [] => none
  | dir :: rest =>
    let path := if dir.isEmpty then name else dir ++ "/" ++ name
    if t.isDirectory ⟨toText path⟩ then some (path, !dir.isEmpty) else searchedDirectory t name rest

/-- Whether a path begins at the root, in the working directory or in its parent. -/
def isPlaced (path : String) : Bool :=
  match path.toList.splitOn '/' with
  | [] :: _ :: _ => true
  | first :: _ => first = ['.'] || first = ['.', '.']
  | [] => false

def runChangeDir (arguments : List String) : Activity Unit := do
  let (letters, arguments) ← options ['L', 'P'] arguments
  let back := arguments.head? = some "-"
  let target ← match arguments.head? with
    | none => do pure ((← valueOf? "HOME").getD "")
    | some "-" => do pure ((← valueOf? "OLDPWD").getD "")
    | some path => pure path
  let path := if target.isEmpty then "." else target
  let found ← if isPlaced target then pure none
    else match ← valueOf? "CDPATH" with
      | none => pure none
      | some dirs => pure (searchedDirectory (← get).files path
          ((dirs.toList.splitOn ':').map String.ofList))
  let (path, searched) := found.getD (path, false)
  if !(← enterDirectory (isPhysical letters) path) then abort ("can't cd to " ++ target)
  if back || searched then emitText 1 ((← get).directory ++ "\n")
  setStatus 0

def runTellDir (arguments : List String) : Activity Unit := do
  let (letters, _) ← options ['L', 'P'] arguments
  let s ← get
  emitText 1 ((if isPhysical letters then physicalPath s.files.workingDir else s.directory) ++ "\n")
  setStatus 0

end SymbolAtlas.Shell
