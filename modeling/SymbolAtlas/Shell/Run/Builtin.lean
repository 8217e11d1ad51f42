import SymbolAtlas.Shell.Run.Describe
import SymbolAtlas.Shell.Run.Program

namespace SymbolAtlas.Shell

open Files Activity

variable (run : List Statement → Activity Unit)

def runBuiltin : Nat → String → List String → Activity Unit
  | 0, _, _ => throw .endless
  | fuel + 1, name, arguments => do
    match name with
    | "eval" =>
      actingAs (some name) do
        setStatus 0
        withReading (runText run fuel false { rest := (" ".intercalate arguments).toList })
    | "." =>
      match arguments with
      | [] => setStatus 0
      | file :: _ =>
        actingAs (some name) do
          let (path, text) ← sourceFile file
          setStatus 0
          match ← caught (actingAs (some path) (withGuard false (withReading
              (runText run fuel true { rest := text })))) with
          | some .leave => pure ()
          | d => depart d
    | "exec" =>
      match arguments with
      | [] => setStatus 0
      | program :: rest =>
        actingAs (some name) do
          match ← findTool none program with
          | .error fault => exitWith (← tellMissing program fault)
          | .ok _ => invokeProgram run fuel true none program rest
        modify fun s => { s with atExit := none }
        throw .exit
    | "command" =>
      match plainCommand? none arguments with
      | some (search, program :: rest) =>
        if isBuiltin program then runBuiltin fuel program rest
        else invokeProgram run fuel (← isDone) search program rest
      | _ => actingAs (some name) (noting name (runDescribe arguments))
    | "type" => actingAs (some name) (noting name (describeCommands arguments))
    | "hash" =>
      let isKnown (text : String) : Activity Bool := do
        let isFunction := ((← get).functions.lookup text).isSome
        return text.toList.contains '/' || isFunction || isBuiltin text
      actingAs (some name) (noting name (runHash isKnown arguments))
    | "wait" =>
      actingAs (some name) do
        settle run fuel none true
        match ← actingSignal? with
        | some signal => setStatus (128 + signal)
        | none => runWait tellSignal arguments
    | _ => actingAs (some name) (noting name ((builtin? name arguments).getD (setStatus 127)))
where
  /-- Runs a built-in command, and tells that what it has written was lost. -/
  noting (name : String) (r : Activity Unit) : Activity Unit := do
    modify fun s => { s with lost := false }
    r
    if (← get).lost then
      complain (name ++ ": I/O error")
      setStatus 1

end SymbolAtlas.Shell
