import SymbolAtlas.Diagnostic
import SymbolAtlas.Json

namespace SymbolAtlas

/-- What is written to the two streams. -/
structure Transcript where
  stdout : String := ""
  stderr : String := ""
  deriving DecidableEq, Inhabited

namespace Transcript

def print (t : Transcript) (text : String) : Transcript :=
  { t with stdout := t.stdout ++ text }

def complain (t : Transcript) (text : String) : Transcript :=
  { t with stderr := t.stderr ++ text }

end Transcript

inductive ColorChoice
  | auto
  | always
  | never
  deriving DecidableEq, Inhabited

inductive Status
  | loaded
  | finished
  | resolving
  | running
  | info
  | warning
  | error
  deriving DecidableEq, Inhabited

namespace Status

def word : Status → String
  | loaded => "Loaded"
  | finished => "Finished"
  | resolving => "Resolving"
  | running => "Running"
  | info => "Info"
  | warning => "Warning"
  | error => "error"

/-- The terminal sequence that begins the color: green for success, cyan for progress. -/
def color : Status → String
  | loaded => "\x1b[1;32m"
  | finished => "\x1b[1;32m"
  | resolving => "\x1b[1;36m"
  | running => "\x1b[1;36m"
  | info => "\x1b[1;34m"
  | warning => "\x1b[1;33m"
  | error => "\x1b[1;31m"

end Status

/-- How a command writes. -/
structure Console where
  json : Bool
  color : Bool
  deriving DecidableEq, Inhabited

namespace Console

/-- The console for a mode and a choice of colors. `terminal` says whether somebody looks at the
error stream. -/
def make (json : Bool) (choice : ColorChoice) (terminal : Bool) : Console :=
  let wanted := match choice with
    | .auto => terminal
    | .always => true
    | .never => false
  ⟨json, !json && wanted⟩

/-- Words of status lines end in the same column. -/
def statusWidth : Nat :=
  12

def padded (word : String) : String :=
  String.ofList (List.replicate (statusWidth - word.length) ' ') ++ word

def statusLine (c : Console) (status : Status) (message : String) : String :=
  let word := padded status.word
  (if c.color then colored status.color word else word) ++ " " ++ message ++ "\n"

def status (c : Console) (s : Status) (message : String) (t : Transcript) : Transcript :=
  if c.json then t else t.complain (c.statusLine s message)

def value (_ : Console) (j : Json) (t : Transcript) : Transcript :=
  t.print (j.render ++ "\n")

def emit (c : Console) (d : Diagnostic) (t : Transcript) : Transcript :=
  t.complain (d.format c.color)

end Console

end SymbolAtlas
