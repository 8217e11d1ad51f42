import SymbolAtlas.Build.Error
import SymbolAtlas.LoadError

namespace SymbolAtlas

inductive Failure
  | load (error : LoadError)
  | build (error : BuildError)
  | plain (contexts : List String)
  deriving DecidableEq, Inhabited

namespace Failure

def joined (contexts : List String) : String :=
  ": ".intercalate contexts

def message : Failure → String
  | load error => error.message
  | build error => error.message
  | plain contexts => joined contexts

/-- The text for a terminal: a diagnostic where there is one. -/
def report (color : Bool) : Failure → String
  | load error => error.diagnostic.format color
  | build error => error.diagnostic.format color
  | plain contexts => "error: " ++ joined contexts ++ "\n"

/-- A plain failure told in one more context. -/
def within (context : String) : Failure → Failure
  | plain contexts => plain (context :: contexts)
  | failure => failure

/-- The failure of a file operation that was done for `context`. -/
def ofFile (context : String) (fault : Files.Fault) : Failure :=
  plain [context, fault.message]

end Failure

/-- Runs a file operation for a purpose that is told when it fails. -/
def withContext {α : Type} (context : String) (r : Except Files.Fault α) : Except Failure α :=
  r.mapError (Failure.ofFile context)

end SymbolAtlas
