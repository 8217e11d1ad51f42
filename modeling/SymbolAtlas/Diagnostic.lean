namespace SymbolAtlas

inductive Severity
  | error
  | warning
  | note
  deriving DecidableEq, Inhabited

namespace Severity

def word : Severity → String
  | error => "error"
  | warning => "warning"
  | note => "note"

/-- The terminal sequence that begins this severity's color. -/
def color : Severity → String
  | error => "\x1b[1;31m"
  | warning => "\x1b[1;33m"
  | note => "\x1b[1;36m"

end Severity

/-- A text between the terminal sequence `color` and the one that ends it. -/
def colored (color text : String) : String :=
  color ++ text ++ "\x1b[0m"

structure Diagnostic where
  message : String
  severity : Severity := .error
  location : Option String := none
  context : List String := []
  suggestions : List String := []
  deriving DecidableEq, Inhabited

namespace Diagnostic

/-- The suggestions, numbered from `n`. -/
def numbered (n : Nat) : List String → String
  | [] => ""
  | s :: rest => s!"  {n}. " ++ s ++ "\n" ++ numbered (n + 1) rest

/-- The diagnostic as lines for a terminal, with or without color. -/
def format (d : Diagnostic) (color : Bool) : String :=
  let severity := if color then colored d.severity.color d.severity.word else d.severity.word
  let location := match d.location with
    | some path => "  --> " ++ path ++ "\n"
    | none => ""
  let context := String.join (d.context.map fun line => "  = " ++ line ++ "\n")
  let help := if color then colored "\x1b[1;32m" "help" else "help"
  let suggestions :=
    if d.suggestions.isEmpty then ""
    else "\n" ++ help ++ ": consider:\n" ++ numbered 1 d.suggestions
  severity ++ ": " ++ d.message ++ "\n" ++ location ++ context ++ suggestions

end Diagnostic

/-! ## Suggestions that several errors share -/

namespace Suggestion

def rebuildLibrary : String :=
  "Rebuild the library with the current compiler"

def declarePackage : String :=
  "Add `package=<name>` to the library manifest, or regenerate it with the header-import tool"

def checkLibraryPath : String :=
  "Check that the library directory exists and is readable"

def listTargets : String :=
  "Pass one of the known targets to `-target`"

def addRepository : String :=
  "Add the directory that contains it with `-repo <path>`"

def runVerbose : String :=
  "Run with `--verbose` for more details"

end Suggestion

end SymbolAtlas
