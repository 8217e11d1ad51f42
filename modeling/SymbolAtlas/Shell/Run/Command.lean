import SymbolAtlas.Shell.Run.Builtin
import SymbolAtlas.Shell.Run.Redirect

namespace SymbolAtlas.Shell

open Files Activity

/-- The most functions that may be run within one another. -/
def functionLimit : Nat :=
  1000

/-- What a loop does after its body has departed: whether it goes on. -/
def afterTurn : Option Departure → Activity Bool
  | none => return true
  | some (.leaveLoop depth) =>
    if depth ≤ 1 then do setStatus 0; return false else throw (.leaveLoop (depth - 1))
  | some (.nextTurn depth) =>
    if depth ≤ 1 then do setStatus 0; return true else throw (.nextTurn (depth - 1))
  | some d => throw d

/-- Whether a failure of a command ends a script that ends at failures. -/
def endsAtFailure : Command → Bool
  | .simple .. => true
  | .apart _ => true
  | .redirected (.apart _) _ => true
  | .placed _ command => endsAtFailure command
  | _ => false

/-- Ends the script if it ends at failures and the last one counts. -/
def checkFailure : Activity Unit := do
  let s ← get
  if s.settings.has .stopsOnFailure && !s.guarded && s.status ≠ 0 then throw .exit

/-- Looks up the programs of commands whose names are written plainly, before they are run apart. -/
def findAhead (commands : List Command) : Activity Unit := do
  for command in commands do
    match command with
    | .simple _ _ ([.text false name] :: _) _ =>
      let name := String.ofList name
      let isFunction := ((← get).functions.lookup name).isSome
      if isName name.toList && !isFunction && !isBuiltin name then
        let _ ← findTool none name
    | _ => pure ()

mutual

/-- Runs a function with parameters of its own. -/
def invokeFunction : Nat → Command → List String → Activity Unit
  | 0, _, _ => throw .endless
  | fuel + 1, body, arguments => do
    let before ← get
    if functionLimit ≤ before.frames.length then
      abort ("Maximum function recursion depth (" ++ toString functionLimit ++ ") reached")
    set { before with parameters := arguments, optionIndex := 1, optionOffset := none }
    let departure ← caught (withLoops 0 (withLast false (inFrame (runCommand fuel body))))
    modify fun s => { s with
      parameters := before.parameters, optionIndex := before.optionIndex
      optionOffset := before.optionOffset }
    match departure with
    | some .leave => pure ()
    | d => depart d

/-- Runs a command whose words are known. Only a command that is part of the language ends the
script if it fails. -/
def invoke : Nat → String → List String → Activity Unit
  | 0, _, _ => throw .endless
  | fuel + 1, name, arguments => do
    let s ← get
    if specialCommands.contains name then runBuiltin (runStatements fuel) fuel name arguments
    else match s.functions.lookup name with
      | some body => invokeFunction fuel body arguments
      | none =>
        if isBuiltin name then tolerantly (runBuiltin (runStatements fuel) fuel name arguments)
        else invokeProgram (runStatements fuel) fuel (← isDone) none name arguments

/-- Runs a simple command. Variables that are set before a command hold for it only, unless it is part
of the language. -/
def runSimple : Nat → List (String × Word) → List Word → List Redirect → Activity Unit
  | 0, _, _, _ => throw .endless
  | fuel + 1, assignments, words, redirects => do
    modify fun s => { s with taken := none }
    let texts ← commandTexts (runStatements fuel) fuel words
    let before ← get
    let set : Activity Unit := do
      let assigned ← assignAll (runStatements fuel) fuel assignments
      if before.settings.has .traces && !(assigned ++ texts).isEmpty then
        traceCommand (runStatements fuel) fuel (before.streams.lookup 2) (assigned ++ texts)
    match texts with
    | [] =>
      let worked ← withRedirects (runStatements fuel) fuel redirects set
      let taken := (← get).taken
      setStatus (if worked then taken.getD 0 else 2)
    | name :: arguments =>
      if innerCommand texts.length texts = ["exec"] then
        let directions ← directions (runStatements fuel) fuel redirects
        let worked ← directAll (runStatements fuel) fuel directions
        set
        if worked then setStatus 0
        else if name = "exec" then exitWith 2
        else setStatus 2
      else if specialCommands.contains name then
        let worked ← withRedirects (runStatements fuel) fuel redirects do
          set
          invoke fuel name arguments
        if !worked then exitWith 2
      else
        let worked ← withRedirects (runStatements fuel) fuel redirects do
          set
          for (own, _) in assignments do
            changeVariable own fun v => { v with exported := true }
          invoke fuel name arguments
        for (own, _) in assignments do restoreVariable own (before.bindings.lookup own)
        if !worked then setStatus 2

/-- Repeats a body by a condition. `status` is how the last turn has ended. -/
def runLoop : Nat → Bool → List Statement → List Statement → Nat → Activity Unit
  | 0, _, _, _, _ => throw .endless
  | fuel + 1, untilGood, condition, body, status => do
    if ← afterTurn (← caught (withGuard true (runStatements fuel condition))) then
      if ((← get).status == 0) != untilGood then
        if ← afterTurn (← caught (runStatements fuel body)) then
          runLoop fuel untilGood condition body (← get).status
      else setStatus status

def runEach : Nat → String → List String → List Statement → Activity Unit
  | 0, _, _, _ => throw .endless
  | _, _, [], _ => return
  | fuel + 1, name, value :: rest, body => do
    assign name value
    if ← afterTurn (← caught (runStatements fuel body)) then runEach fuel name rest body

/-- Runs the first branch with a condition that ends well. -/
def runChoice : Nat → List (List Statement × List Statement) → List Statement → Activity Unit
  | 0, _, _ => throw .endless
  | fuel + 1, branches, otherwise => do
    match branches with
    | (condition, body) :: rest =>
      withLast false (withGuard true (runStatements fuel condition))
      if (← get).status = 0 then runStatements fuel body else runChoice fuel rest otherwise
    | [] => if otherwise.isEmpty then setStatus 0 else runStatements fuel otherwise

/-- Runs the first branch with a pattern that matches. -/
def runSelection : Nat → List Char → List (List Word × List Statement) → Activity Unit
  | 0, _, _ => throw .endless
  | fuel + 1, text, branches => do
    match branches with
    | [] => setStatus 0
    | (patterns, body) :: rest =>
      if ← matchesAny (runStatements fuel) fuel text patterns then
        if body.isEmpty then setStatus 0 else runStatements fuel body
      else runSelection fuel text rest

def runCommand : Nat → Command → Activity Unit
  | 0, _ => throw .endless
  | fuel + 1, command => do
    match command with
    | .simple line assignments words redirects =>
      modify fun s => { s with line }
      runSimple fuel assignments words redirects
    | .placed line command =>
      modify fun s => { s with line }
      runCommand fuel command
    | .group body => runStatements fuel body
    | .apart body => runGroupApart fuel (runStatements fuel body)
    | .background body => defer body
    | .choice branches otherwise => runChoice fuel branches otherwise
    | .loop untilGood condition body =>
      let loops := (← get).loops + 1
      withLast false (withLoops loops (runLoop fuel untilGood condition body 0))
    | .each name words body =>
      let values ← match words with
        | some words => wordTexts (runStatements fuel) fuel words
        | none => pure (← get).parameters
      if values.isEmpty then setStatus 0
      let loops := (← get).loops + 1
      withLast false (withLoops loops (runEach fuel name values body))
    | .select word branches =>
      runSelection fuel (← wordText (runStatements fuel) fuel word).toList branches
    | .define name body =>
      modify fun s => { s with
        functions := (name, body) :: s.functions, status := 0
        tracked := s.tracked.filter (·.name != name) }
    | .redirected (.apart body) redirects =>
      let directions ← directions (runStatements fuel) fuel redirects
      runGroupApart fuel do
        if ← directAll (runStatements fuel) fuel directions then runStatements fuel body else exitWith 2
    | .redirected command redirects =>
      let body := withLast false (runCommand fuel command)
      if !(← withRedirects (runStatements fuel) fuel redirects body) then setStatus 2

/-- Runs a group apart and waits for it. If nothing is run after it, it takes the place of the
script. -/
def runGroupApart : Nat → Activity Unit → Activity Unit
  | 0, _ => throw .endless
  | fuel + 1, body => do
    settleNow (runStatements fuel) fuel
    match ← runApart (runStatements fuel) fuel body with
    | none => pure ()
    | some signal => if ← isDone then throw (.killed signal) else tellSignal signal

/-- Runs commands of which each reads what the one before it writes. One that writes without an end
is ended by the one after it. -/
def runPiped : Nat → List Command → Activity Unit
  | 0, _ => throw .endless
  | _, [] => return
  | fuel + 1, command :: rest => do
    match rest with
    | [] => tellEnd (← runApart (runStatements fuel) fuel (runCommand fuel command))
    | _ =>
      let before ← get
      set { before with turns := before.turns / 2 }
      let (bytes, departure) ← takeOutput do
        tellEnd (← runApart (runStatements fuel) fuel (runCommand fuel command))
      let unused := before.turns - before.turns / 2
      modify fun s => { s with status := before.status, turns := s.turns + unused }
      if departure ≠ some .endless then depart departure
      let number ← addChannel (.text bytes)
      connect 0 number
      let departure ← caught (runPiped fuel rest)
      restoreStreams before.streams [0]
      dropChannels before.channels.size
      depart departure

/-- Runs a statement. A failure that decides on the next statement is looked at. -/
def runStatement : Nat → Statement → Bool → Activity Unit
  | 0, _, _ => throw .endless
  | fuel + 1, .pipeline _ negated commands, decides => do
    let s ← get
    if s.settings.has .readsOnly then return
    if s.turns = 0 then throw .endless
    set { s with turns := s.turns - 1 }
    let body : Activity Unit := match commands with
      | [command] => runCommand fuel command
      | _ => do
        settleNow (runStatements fuel) fuel
        findAhead commands
        runPiped fuel commands
    if negated || decides then withLast false (withGuard true body) else body
    runArrived (runStatements fuel) fuel
    let counts := match commands with
      | [command] => endsAtFailure command
      | _ => true
    if negated then setStatus (if (← get).status = 0 then 1 else 0)
    else if counts && !decides then checkFailure

def runStatements : Nat → List Statement → Activity Unit
  | 0, _ => throw .endless
  | _, [] => return
  | fuel + 1, statement :: rest => do
    let good := (← get).status == 0
    let wanted := match statement.link with
      | .always => true
      | .ifGood => good
      | .ifBad => !good
    if wanted then
      let decides := rest.head?.any (·.link != .always)
      if rest.isEmpty then runStatement fuel statement decides
      else withLast false (runStatement fuel statement decides)
    runStatements fuel rest

end

end SymbolAtlas.Shell
