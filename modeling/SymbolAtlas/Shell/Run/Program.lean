import SymbolAtlas.Shell.Run.Text

namespace SymbolAtlas.Shell

open Files Activity

/-- Whether nothing is to be run by the script after a last command. -/
def isDone : Activity Bool := do
  let s ← get
  let hasTraps := s.atExit.any (!·.isEmpty) || s.atSignals.any (!·.2.isEmpty)
  return s.isLast && !hasTraps

/-- Takes over the options that a script is started with. A script that is interactive watches over
jobs as well. -/
def startSettings (o : Options) : Activity Unit := do
  emitText 1 o.listed
  let watches := o.settings.has .monitors || o.settings.has .interactive
  changeSettings (o.settings.switch watches .monitors)

variable (run : List Statement → Activity Unit)

def runInput (fuel : Nat) : Activity Unit := do
  let bytes := (← readLeft 0).toOption.getD []
  keepLeft 0 []
  runText run fuel true { rest := (ofBytes (bytes.filter (· != 0))).toList }

def runShell (fuel : Nat) (arguments : List String) : Activity Unit := do
  modify fun s => { s with line := 0 }
  let own := (← get).name
  match readOptions { settings := [], starting := true } arguments.length arguments with
  | .error text => abort text
  | .ok o =>
    let readsInput := o.settings.has .fromInput || (!o.hasScript && o.arguments.isEmpty)
    startSettings { o with settings := o.settings.switch readsInput .fromInput }
    let script : Activity Unit ← match o.hasScript, o.arguments with
      | true, [] => abort "-c requires an argument"
      | true, script :: rest =>
        modify fun s =>
          { s with name := rest.headD own, parameters := rest.tail, isArgument := true }
        pure do
          runText run fuel false { rest := script.toList }
          if readsInput then runInput run fuel
      | false, file :: rest =>
        if readsInput then
          modify fun s => { s with parameters := o.arguments }
          pure (runInput run fuel)
        else match ← scriptFile file with
          | .error complaint => abort complaint
          | .ok text =>
            modify fun s => { s with name := file, parameters := rest }
            pure (runText run fuel true { rest := text })
      | false, [] => pure (runInput run fuel)
    runAtExit run fuel (← caught script)

/-- Runs a program by its name. If it takes the place of the script, so does the signal that ends
it. -/
def invokeProgram (fuel : Nat) (replaces : Bool) (search : Option String) (name : String)
    (arguments : List String) : Activity Unit := do
  match ← findTool search name with
  | .error fault => setStatus (← tellMissing name fault)
  | .ok (_, tool) =>
    settleNow run fuel
    reuseNumber
    match tool.work? (← setupFor name) arguments with
    | some w =>
      settle run fuel (some ((← get).clock + w.pause)) false
      takeWork name w
    | none =>
      match ← asProgram name replaces (runShell run fuel arguments) with
      | none => pure ()
      | some signal => if replaces then throw (.killed signal) else tellSignal signal
    seeJobs

end SymbolAtlas.Shell
