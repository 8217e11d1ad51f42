import SymbolAtlas.Shell.Run

namespace SymbolAtlas.Toolbox

open Files

/-- The tree as it is seen from the working directory of a command. -/
def enter (t : Tree) : Option Path → Except Fault Tree
  | none => .ok t
  | some dir => do
    let place ← t.place dir
    match t.get? place with
    | some .directory => return { t with workingDir := place }
    | some (.file _) => throw .notDirectory
    | none => throw .missing

/-- The variables of a command in the order of their names, the last value of each. -/
def lastValues (environment : List (String × String)) : List (String × String) :=
  let names := (environment.map (·.1)).mergeSort.eraseReps
  names.filterMap fun name => (environment.reverse.lookup name).map (name, ·)

/-- The variables as a script gets them, bytewise: a name ends at the first equals sign, and the
search path and the home directory are there in any case. -/
def receivedValues (home : Path) (environment : List (String × String)) : List (String × String) :=
  let given := (lastValues environment).filterMap fun (name, value) =>
    let (name, value) := Shell.splitAssignment (Shell.ofText (name ++ "=" ++ value))
    value.map (name, ·)
  let usual := [("HOME", Shell.ofText home.text), ("PATH", Tool.searchPath)]
  usual.filter (fun (name, _) => (given.lookup name).isNone) ++ given

/-- Whether a command has a zero character in it, which no program can be given. -/
def hasZero (c : Command) : Bool :=
  let texts := c.program :: c.arguments ++ (c.workingDir.map (·.text)).toList ++
    c.environment.flatMap fun (name, value) => [name, value]
  texts.any fun s => s.toList.contains '\x00'

/-- What a program finds that has nothing to read and whose output is kept. -/
def setup (t : Tree) (name : String) : Setup where
  name := name
  files := t
  inlets := [(0, { channel := 0, left := .ok [] })]
  kinds := [(0, .character), (1, .pipe), (2, .pipe)]

/-- What a tool writes among the files `t`, called by a name. -/
def runTool (t : Tree) (values : List (String × String)) (tool : Tool) (name : String)
    (arguments : List String) : Output :=
  let arguments := arguments.map Shell.ofText
  match tool.work? (setup t (Shell.ofText name)) arguments with
  | some w => { exit := .code w.status, stdout := w.bytes false, stderr := w.bytes true }
  | none => Shell.run t (Shell.ofText name) values arguments

/-- Runs a command among the files `t`. A `PATH` of its own says where its program is looked for. -/
def runCommand (t : Tree) (c : Command) : Except Fault Output := do
  if hasZero c then throw (.other "nul byte found in provided data")
  let home : Path := ⟨"/" ++ "/".intercalate (t.workingDir ++ ["home"])⟩
  let t ← enter t c.workingDir
  let search := (c.environment.reverse.lookup "PATH").getD Tool.searchPath
  let tool ← Tool.find t search c.program
  return runTool t (receivedValues home c.environment) tool c.program c.arguments

def programs (t : Tree) : Programs :=
  let t := Tool.amongTools t
  { run := runCommand t
    isInstalled name := (Tool.find t Tool.searchPath name).isOk }

end SymbolAtlas.Toolbox
