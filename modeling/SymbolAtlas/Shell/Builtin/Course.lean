import SymbolAtlas.Shell.Builtin.Options

namespace SymbolAtlas.Shell

open Files Activity

def runExit (arguments : List String) : Activity Unit := do
  let s ← get
  let status ← natArgument arguments.head? (s.endStatus.getD s.status)
  exitWith status

def runReturn (arguments : List String) : Activity Unit := do
  let status ← natArgument arguments.head? (← get).status
  setStatus status
  throw .leave

def runShift (arguments : List String) : Activity Unit := do
  let count ← natArgument arguments.head? 1
  if (← get).parameters.length < count then abort "can't shift that many"
  modify fun s => { s with parameters := s.parameters.drop count, status := 0 }

/-- Leaves as many loops as there are, at most those that are asked for. -/
def runLeaveLoop (departure : Nat → Departure) (arguments : List String) : Activity Unit := do
  let depth ← natArgument arguments.head? 1
  if depth = 0 then abort ("Illegal number: " ++ arguments.headD "")
  let loops := (← get).loops
  if loops = 0 then setStatus 0 else throw (departure (min depth loops))

end SymbolAtlas.Shell
