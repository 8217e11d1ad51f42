import SymbolAtlas.Failure
import SymbolAtlas.Files.Path
import SymbolAtlas.Text.Blank
import SymbolAtlas.Text.Utf8

namespace SymbolAtlas

/-- A program to run. Of several values for one variable of the environment the last one counts. -/
structure Command where
  program : String
  arguments : List String := []
  environment : List (String × String) := []
  workingDir : Option Files.Path := none
  deriving DecidableEq, Inhabited

/-- The program and its arguments as one line. -/
def Command.toText (c : Command) : String :=
  " ".intercalate (c.program :: c.arguments)

inductive Exit
  | code (n : Nat)
  | killed
  deriving DecidableEq, Inhabited

namespace Exit

def succeeded (e : Exit) : Bool :=
  e == code 0

def code? : Exit → Option Nat
  | code n => some n
  | killed => none

def describe (e : Exit) : String :=
  match e.code? with
  | some n => s!"Some({n})"
  | none => "None"

end Exit

/-- How a program ended and what it has written. -/
structure Output where
  exit : Exit := .code 0
  stdout : Bytes := []
  stderr : Bytes := []
  deriving DecidableEq, Inhabited

/-- The programs that can be run. A name without a slash is looked up among the installed ones. -/
structure Programs where
  run : Command → Except Files.Fault Output
  isInstalled : String → Bool

namespace Programs

/-- Runs a command whose output is kept. -/
def capture (p : Programs) (c : Command) : Except Failure Output :=
  withContext ("failed to spawn `" ++ c.program ++ "`") (p.run c)

/-- Runs a command that has to succeed. -/
def captureChecked (p : Programs) (c : Command) : Except Failure Output := do
  let output ← p.capture c
  if output.exit.succeeded then return output
  let complaint := String.ofList (Text.trimEnd (Text.textOfBytes output.stderr).toList)
  throw (.plain ["`" ++ c.toText ++ "` failed with exit code " ++ output.exit.describe ++ "\n" ++
    complaint])

/-- Runs a command that writes to the terminal itself. -/
def status (p : Programs) (c : Command) : Except Failure Output :=
  withContext ("failed to execute `" ++ c.program ++ "`") (p.run c)

end Programs

end SymbolAtlas
