import SymbolAtlas.CommandLine.Flags
import SymbolAtlas.Files.Path

namespace SymbolAtlas

inductive Shell
  | bash
  | elvish
  | fish
  | powershell
  | zsh
  deriving DecidableEq, Inhabited

namespace Shell

def all : List Shell :=
  [bash, elvish, fish, powershell, zsh]

def name : Shell → String
  | bash => "bash"
  | elvish => "elvish"
  | fish => "fish"
  | powershell => "powershell"
  | zsh => "zsh"

def ofName? (name : String) : Option Shell :=
  all.find? (·.name == name)

end Shell

inductive Task
  | inspect (libraries : List Files.Path) (listNames json : Bool)
  | lookUp (classId : String) (libraries : List Files.Path) (json : Bool)
  | build (flavor tool : Option String) (printOnly : Bool) (arguments : List String)
  | completions (shell : Shell)
  deriving DecidableEq

/-- A command line that can be carried out. -/
structure CommandLine where
  verbose : Bool
  noColor : Bool
  task : Task
  deriving DecidableEq

namespace CommandLine

/-! ## The flags -/

def verboseFlag : Flag :=
  { long := "verbose", short := some 'v' }

def noColorFlag : Flag :=
  { long := "no-color" }

def helpFlag : Flag :=
  { long := "help", short := some 'h', use := .ends .help }

def versionFlag : Flag :=
  { long := "version", short := some 'V', use := .ends .version }

def listNamesFlag : Flag :=
  { long := "classifiers" }

def jsonFlag : Flag :=
  { long := "json" }

def libraryFlag : Flag :=
  { long := "library", short := some 'l', use := .value true false }

def flavorFlag : Flag :=
  { long := "flavor", use := .value false true }

def toolFlag : Flag :=
  { long := "tool", use := .value false false }

def printOnlyFlag : Flag :=
  { long := "print-only" }

/-- The flags that may stand before and after the name of a command. -/
def commonFlags : List Flag :=
  [verboseFlag, noColorFlag, helpFlag]

/-- What stands before the name of a command. -/
def mainForm : Form where
  flags := commonFlags ++ [versionFlag]
  takesWord _ _ := false

/-- Libraries are named by paths that are not empty. -/
def inspectForm : Form where
  flags := commonFlags ++ [listNamesFlag, jsonFlag]
  takesWord _ word := !word.isEmpty

def lookUpForm : Form where
  flags := commonFlags ++ [libraryFlag, jsonFlag]
  takesWord before _ := before.isEmpty

/-- The arguments of the build stand after two hyphens. -/
def buildForm : Form where
  flags := commonFlags ++ [flavorFlag, toolFlag, printOnlyFlag]
  takesWord _ _ := false

def completionsForm : Form where
  flags := commonFlags
  takesWord before word := before.isEmpty && (Shell.ofName? word).isSome

/-! ## The commands -/

/-- The words of a command, those after two hyphens among them, if it may have them all. -/
def allWords (form : Form) (g : Given) : Except Stop (List String) :=
  g.trailing.foldlM (fun before word =>
    if form.takesWord before word then .ok (before ++ [word]) else .error .misuse) g.words

def inspectTask (g : Given) : Except Stop Task := do
  let libraries ← allWords inspectForm g
  if libraries.isEmpty then throw .misuse
  return .inspect (libraries.map Files.Path.mk) (g.has listNamesFlag) (g.has jsonFlag)

def lookUpTask (g : Given) : Except Stop Task := do
  let libraries := (g.values libraryFlag).map Files.Path.mk
  match ← allWords lookUpForm g with
  | [classId] =>
    if libraries.isEmpty then throw .misuse
    return .lookUp classId libraries (g.has jsonFlag)
  | _ => throw .misuse

/-- The build that is asked for. `flavor` is used when no flag gives one. -/
def buildTask (flavor : Option String) (g : Given) : Except Stop Task :=
  .ok (.build ((g.values flavorFlag).head?.or flavor) (g.values toolFlag).head?
    (g.has printOnlyFlag) g.trailing)

def completionsTask (g : Given) : Except Stop Task := do
  match (← allWords completionsForm g).head?.bind Shell.ofName? with
  | some shell => return .completions shell
  | none => throw .misuse

/-- The commands by name, with their forms and how the task is made of what is given. -/
def commands (flavor : Option String) : List (String × Form × (Given → Except Stop Task)) :=
  [("inspect", inspectForm, inspectTask), ("lookup", lookUpForm, lookUpTask),
    ("interop", buildForm, buildTask flavor), ("completions", completionsForm, completionsTask)]

/-- Help is asked for in general or about one command. -/
def helpAbout (words : List String) : Stop :=
  match words with
  | [] => .help
  | [name] => if name == "help" || ((commands none).lookup name).isSome then .help else .misuse
  | _ => .misuse

/-- Reads a command line. `flavor` is the flavor that the environment gives for builds. -/
def parse (flavor : Option String) (arguments : List String) : Except Stop CommandLine := do
  let (before, rest) ← scan mainForm true {} arguments
  match rest with
  | [] => throw .misuse
  | name :: rest =>
    if name == "help" then throw (helpAbout rest)
    match (commands flavor).lookup name with
    | none => throw .misuse
    | some (form, makeTask) =>
      let (given, _) ← scan form false {} rest
      return { verbose := before.has verboseFlag || given.has verboseFlag,
               noColor := before.has noColorFlag || given.has noColorFlag,
               task := ← makeTask given }

end CommandLine

end SymbolAtlas
