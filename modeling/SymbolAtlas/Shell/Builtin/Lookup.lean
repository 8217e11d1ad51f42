import SymbolAtlas.Shell.Builtin.Options

namespace SymbolAtlas.Shell

open Files Activity

/-- The row of a name, of so many. -/
def rowOf (rows : Nat) (name : String) : Nat :=
  let codes := name.toList.map Char.toNat
  (codes.headD 0 * 16 + codes.foldl Nat.add 0) % rows

/-- The elements row by row, each row in its own order. -/
def byRows {α : Type} (rows : Nat) (name : α → String) (xs : List α) : List α :=
  (List.range rows).flatMap fun row => xs.filter fun x => rowOf rows (name x) = row

/-! ## Aliases -/

def listedAliases : Activity (List (String × String)) := do
  return byRows 39 (·.1) (← get).aliases

def showAlias (name meaning : String) : Activity Unit :=
  emitText 1 (name ++ "=" ++ singleQuoted meaning ++ "\n")

/-- The name and the meaning in an argument. An equals sign at its front belongs to the name. -/
def splitAlias (argument : String) : String × Option String :=
  let s := argument.toList
  let name := s.take 1 ++ (s.drop 1).takeWhile (· != '=')
  match s.drop name.length with
  | '=' :: meaning => (String.ofList name, some (String.ofList meaning))
  | _ => (argument, none)

def setAlias (name meaning : String) : Activity Unit :=
  modify fun s =>
    let isOld := (s.aliases.lookup name).isSome
    let aliases := if isOld then
        s.aliases.map (fun (known, old) => (known, if known = name then meaning else old))
      else s.aliases ++ [(name, meaning)]
    { s with aliases }

def runAlias (arguments : List String) : Activity Unit := do
  setStatus 0
  if arguments.isEmpty then
    for (name, meaning) in ← listedAliases do showAlias name meaning
  for argument in arguments do
    match splitAlias argument with
    | (name, some meaning) => setAlias name meaning
    | (name, none) =>
      match (← get).aliases.lookup name with
      | some meaning => showAlias name meaning
      | none =>
        emitText 2 ("alias: " ++ name ++ " not found\n")
        setStatus 1

def runUnalias (arguments : List String) : Activity Unit := do
  let (letters, names) ← options ['a'] arguments
  setStatus 0
  if !letters.isEmpty then modify fun s => { s with aliases := [] }
  else
    for name in names do
      if ((← get).aliases.lookup name).isNone then
        emitText 2 ("unalias: " ++ name ++ " not found\n")
        setStatus 1
      modify fun s => { s with aliases := s.aliases.filter (·.1 != name) }

/-! ## Programs -/

def searchPath : Activity String := do
  return (← valueOf? "PATH").getD ""

/-- The path of the program that a name means and the program itself. Without a search path of its
own the name is looked up among those that have been found before, and kept among them. -/
def findTool (search : Option String) (name : String) : Activity (Except Fault (String × Tool)) := do
  let s ← get
  if name.toList.contains '/' then
    return (Tool.atPath s.files ⟨toText name⟩).map (name, ·)
  match if search.isSome then none else s.tracked.find? fun t => t.name == name && !t.stale with
  | some tracked => return (Tool.atPath s.files ⟨toText tracked.path⟩).map (tracked.path, ·)
  | none =>
    let path := toText (search.getD (← searchPath))
    let found := if name.isEmpty then
        Tool.inDirectories s.files "" false ((path.toList.splitOn ':').map String.ofList)
      else Tool.locate s.files path (toText name)
    match found with
    | .error fault => return .error fault
    | .ok (path, tool) =>
      let path := ofText path.text
      if search.isNone then
        let entry : Tracked := { name, path }
        let isOld := s.tracked.any (·.name == name)
        let tracked := if isOld then
            s.tracked.map (fun (old : Tracked) => if old.name == name then entry else old)
          else s.tracked ++ [entry]
        set { s with tracked }
      return .ok (path, tool)

/-- Tells that a program has not been found, and gives the status for that. -/
def tellMissing (name : String) (fault : Fault) : Activity Nat := do
  match fault with
  | .denied =>
    complain (name ++ ": Permission denied")
    return if name.toList.contains '/' then 126 else 127
  | .nameTooLong =>
    complain (name ++ ": File name too long")
    return 127
  | _ =>
    complain (name ++ ": not found")
    return 127

/-- Looks up commands anew, forgets those that have been found, or lists them. `isKnown` tells which
names need no program. -/
def runHash (isKnown : String → Activity Bool) (arguments : List String) : Activity Unit := do
  let (letters, names) ← options ['r'] arguments
  setStatus 0
  if !letters.isEmpty then modify fun s => { s with tracked := [] }
  else if names.isEmpty then
    for t in byRows 31 (·.name) (← get).tracked do
      emitText 1 (t.path ++ (if t.stale then "*" else "") ++ "\n")
  else
    for name in names do
      if !(← isKnown name) then
        modify fun s => { s with tracked := s.tracked.filter (·.name != name) }
        match ← findTool none name with
        | .ok _ => pure ()
        | .error fault =>
          let _ ← tellMissing name fault
          setStatus 1

end SymbolAtlas.Shell
