import SymbolAtlas.Shell.Run.Command

/-!
# Running scripts

What a script does: words become fields, commands change the state and write, and statements follow
one another. What runs statements bounds the calls, so that a script that never ends is broken off.
-/

namespace SymbolAtlas.Shell

open Files Activity

/-- The most calls within one another that a script may make. -/
def callLimit : Nat :=
  500000

/-- What comes of running the program `sh`, called by a name, among the files `t`. Its arguments and
the variables are bytewise. -/
def run (t : Tree) (name : String) (environment : List (String × String))
    (arguments : List String) : Output :=
  let bindings := environment.filterMap fun (name, value) =>
    if isName name.toList then some (name, ({ value := some value, exported := true } : Variable))
    else none
  let start : State := {
    bindings, own := 999, files := t, nextProcess := 1000, collected := #[[], []]
    channels := #[.nothing, .collected 0, .collected 1], streams := [(0, 0), (1, 1), (2, 2)] }
  let (ending, s) := asProgram name false (runShell (runStatements callLimit) callLimit arguments) start
  let exit := match ending with
    | .ok none => Exit.code s.status
    | _ => .killed
  let text (index : Nat) : Bytes := ((s.collected[index]?).getD []).reverse
  { exit, stdout := text 0, stderr := text 1 }

end SymbolAtlas.Shell
