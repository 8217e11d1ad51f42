import SymbolAtlas.Shell.Builtin.Course
import SymbolAtlas.Shell.Builtin.Directories
import SymbolAtlas.Shell.Builtin.Input
import SymbolAtlas.Shell.Builtin.Limits
import SymbolAtlas.Shell.Builtin.Lookup
import SymbolAtlas.Shell.Builtin.Signals
import SymbolAtlas.Shell.Builtin.Variables

namespace SymbolAtlas.Shell

open Files Activity

def runTest (name : String) (arguments : List String) : Activity Unit := do
  let conditions ← if name = "[" then
      if (arguments.getLast?.getD "").startsWith "]" then pure arguments.dropLast else abort "missing ]"
    else pure arguments
  match Condition.holds (← view) conditions with
  | .ok b => setStatus (if b then 0 else 1)
  | .error text => abort text

def runPrint (arguments : List String) : Activity Unit := do
  let (_, arguments) ← options [] arguments
  match arguments with
  | [] => abort "usage: printf format [arg ...]"
  | pattern :: rest =>
    let style : EscapeStyle := { stops := false, zeroFirst := false, keepsUnknown := false }
    let filled := fill style pattern.toList (rest.length + 1) rest
    for complaint in filled.complaints do complain complaint.message
    emit 1 filled.written.bytes
    setStatus (if filled.complaints.any (·.isFatal) then 2
      else if filled.complaints.isEmpty then 0 else 1)

/-- What a built-in command does that neither runs nor looks up other commands. -/
def builtin? (name : String) (arguments : List String) : Option (Activity Unit) :=
  match name with
  | ":" | "true" => some (setStatus 0)
  | "false" => some (setStatus 1)
  | "echo" => some do
    emit 1 (Tool.scriptEchoBytes arguments)
    setStatus 0
  | "printf" => some (runPrint arguments)
  | "test" | "[" => some (runTest name arguments)
  | "exit" => some (runExit arguments)
  | "return" => some (runReturn arguments)
  | "break" => some (runLeaveLoop .leaveLoop arguments)
  | "continue" => some (runLeaveLoop .nextTurn arguments)
  | "shift" => some (runShift arguments)
  | "set" => some (runSet arguments)
  | "export" => some
    (markVariables "export" (·.exported) (fun v => { v with exported := true }) arguments)
  | "readonly" => some
    (markVariables "readonly" (·.readOnly) (fun v => { v with readOnly := true }) arguments)
  | "local" => some (runLocal arguments)
  | "unset" => some (runUnset arguments)
  | "read" => some (runRead arguments)
  | "getopts" => some (runGetOption arguments)
  | "cd" | "chdir" => some (runChangeDir arguments)
  | "pwd" => some (runTellDir arguments)
  | "umask" => some (runMask arguments)
  | "ulimit" => some (runLimit arguments)
  | "times" => some runTimes
  | "kill" => some (runKill arguments)
  | "trap" => some (runTrap arguments)
  | "jobs" => some (runJobs arguments)
  | "fg" | "bg" => some (runMoveJob arguments)
  | "alias" => some (runAlias arguments)
  | "unalias" => some (runUnalias arguments)
  | _ => none

/-- The built-in commands that run or look up other commands. -/
def runningCommands : List String :=
  [".", "command", "eval", "exec", "hash", "type", "wait"]

def isBuiltin (name : String) : Bool :=
  runningCommands.contains name || (builtin? name []).isSome

end SymbolAtlas.Shell
