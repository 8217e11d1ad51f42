import SymbolAtlas.Shell.Builtin
import SymbolAtlas.Shell.Launch
import SymbolAtlas.Shell.Reader

namespace SymbolAtlas.Shell

open Files Activity

/-- The directories in which every machine has its programs. -/
def commonPath : String :=
  "/usr/local/sbin:/usr/local/bin:/usr/sbin:/usr/bin:/sbin:/bin"

/-- The command that the arguments of `command` ask to run, and where its program is looked for if not
on the search path. There is none if they ask for something else. -/
def plainCommand? (search : Option String) : List String → Option (Option String × List String)
  | [] => none
  | first :: rest =>
    match first.toList with
    | ['-', '-'] => if rest.isEmpty then none else some (search, rest)
    | '-' :: letter :: letters =>
      if (letter :: letters).all (· == 'p') then plainCommand? (some commonPath) rest else none
    | _ => some (search, first :: rest)

/-- A command's name and arguments after any `command`s before them. -/
def innerCommand : Nat → List String → List String
  | 0, texts => texts
  | steps + 1, texts =>
    match texts with
    | "command" :: arguments =>
      (plainCommand? none arguments).elim texts fun (_, inner) => innerCommand steps inner
    | _ => texts

def describeCommand (search : Option String) (inWords : Bool) (name : String) : Activity Unit := do
  let s ← get
  let tell (short long : String) : Activity Unit := do
    emitText 1 ((if inWords then name ++ " is " ++ long else short) ++ "\n")
    setStatus 0
  let missing : Activity Unit := do
    if inWords then emitText 1 (name ++ ": not found\n")
    setStatus 127
  let tracked := if search.isSome then none else s.tracked.find? (·.name == name)
  if reservedWords.contains name then tell name "a shell keyword"
  else match s.aliases.lookup name, tracked with
    | some meaning, _ =>
      tell ("alias " ++ name ++ "=" ++ singleQuoted meaning) ("an alias for " ++ meaning)
    | none, some t => tell t.path ("a tracked alias for " ++ t.path)
    | none, none =>
      if (s.functions.lookup name).isSome then tell name "a shell function"
      else if specialCommands.contains name then tell name "a special shell builtin"
      else if isBuiltin name then tell name "a shell builtin"
      else if name.toList.contains '/' then
        if s.files.present ⟨toText name⟩ then tell name name else missing
      else match ← findTool search name with
        | .ok (path, _) => tell path path
        | .error _ => missing

/-- Tells what commands are. One that there is not decides on the status. -/
def describeCommands (names : List String) : Activity Unit := do
  let mut failed := false
  for name in names do
    describeCommand none true name
    if (← get).status ≠ 0 then failed := true
  setStatus (if failed then 127 else 0)

/-- What the command `command` does when it runs none. -/
def runDescribe (arguments : List String) : Activity Unit := do
  let (letters, names) ← options ['p', 'v', 'V'] arguments
  setStatus 0
  if letters.contains 'v' || letters.contains 'V' then
    let search := if letters.contains 'p' then some commonPath else none
    names.head?.forM (describeCommand search (letters.contains 'V'))

end SymbolAtlas.Shell
