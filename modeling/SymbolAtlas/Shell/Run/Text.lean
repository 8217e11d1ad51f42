import SymbolAtlas.Shell.Builtin
import SymbolAtlas.Shell.Reader
import SymbolAtlas.Shell.Redirection
import SymbolAtlas.Shell.Run.Job

namespace SymbolAtlas.Shell

open Files Activity

def firstLines : Nat → List Char → List Char
  | 0, _ => []
  | _, [] => []
  | count + 1, '\n' :: rest => '\n' :: firstLines count rest
  | count + 1, c :: rest => c :: firstLines (count + 1) rest
termination_by _ s => s.length

/-- What can be read of a script's file, or the complaint that it cannot be opened. -/
def scriptFile (name : String) : Activity (Except String (List Char)) := do
  match ← openPath .read name with
  | .error fault => return .error (openingComplaint false name fault)
  | .ok number =>
    let s ← get
    let bytes := (s.channels[number]?.map (·.left s.files)).bind (·.toOption)
    modify fun s => { s with channels := s.channels.modify number (·.advance s.files []) }
    return .ok (ofBytes ((bytes.getD []).filter (· != 0))).toList

/-- The file that a script takes commands from, with its path: a path, or a file on the search
path. -/
def sourceFile (name : String) : Activity (String × List Char) := do
  let s ← get
  let dirs := ((toText (← searchPath)).toList.splitOn ':').map String.ofList
  let path? := if name.toList.contains '/' then some name
    else dirs.findSome? fun dir =>
      let path := (Files.Path.mk dir).join (toText name)
      if s.files.isFile path then some (ofText path.text) else none
  match path? with
  | none => abort (name ++ ": not found")
  | some path =>
    match ← scriptFile path with
    | .ok text => return (path, text)
    | .error complaint => abort complaint

/-- Drops the line ends at the end of what has been taken, and the zero bytes. -/
def trimTaken (bytes : Bytes) : List Char :=
  let shown := bytes.filter (· != 0)
  (ofBytes (shown.reverse.dropWhile (· == 10)).reverse).toList

variable (run : List Statement → Activity Unit)

/-- Reads and runs a text line by line. The lines of a script that is no argument can be shown. -/
def runText : Nat → Bool → Cursor → Activity Unit
  | 0, _, _ => throw .endless
  | fuel + 1, isFile, cursor => do
    let s ← get
    let show? (taken : List Char) : Activity Unit := do
      if isFile && s.settings.has .shows then emitText 2 (String.ofList taken)
    match nextLine { cursor with aliases := s.aliases } with
    | .error fault =>
      show? (firstLines (fault.line + 1 - cursor.line) cursor.rest)
      modify fun s => { s with line := fault.line }
      abort fault.what
    | .ok none => show? cursor.rest
    | .ok (some (statements, rest)) =>
      let taken := cursor.rest.take (cursor.rest.length - rest.rest.length)
      show? taken
      modify fun s => { s with readLine := rest.line }
      if !s.settings.has .readsOnly then withLast false (run statements)
      runText fuel isFile rest

def runArrived (fuel : Nat) : Activity Unit := do
  for signal in ← takeSignals do
    match (← get).reaction signal with
    | .nothing => pure ()
    | .dies => throw (.killed signal)
    | .acts action =>
      let status := (← get).status
      withGuard false (withReading (runText run fuel false { rest := action.toList }))
      setStatus status

mutual

/-- Runs what is to be run at the end of a script that has departed, and then what it does not wait
for. -/
def runAtExit : Nat → Option Departure → Activity Unit
  | 0, _ => throw .endless
  | fuel + 1, departure => do
    match departure with
    | some .endless => throw .endless
    | some (.killed signal) =>
      settle fuel none false
      throw (.killed signal)
    | _ =>
      let departure ← match (← get).atExit with
        | some action => do
          let status := (← get).status
          modify fun s => { s with
            atExit := none, endStatus := some status, acting := none, guarded := false }
          let departure ← caught (runText run fuel false { rest := action.toList })
          if departure ≠ some .exit && departure ≠ some .failure then setStatus status
          pure departure
        | none => pure none
      let status := (← get).status
      settle fuel none false
      setStatus status
      match departure with
      | some (.killed signal) => throw (.killed signal)
      | some .endless => throw .endless
      | _ => pure ()

/-- Runs the commands that are not waited for as far as they go, up to a time. It can stop at a
signal at which something is run. -/
def settle : Nat → Option Nat → Bool → Activity Unit
  | 0, _, _ => throw .endless
  | fuel + 1, upTo, stops => do
    if stops && (← actingSignal?).isSome then return
    match ← takeDeferred upTo with
    | none => modify fun s => { s with clock := max s.clock (upTo.getD 0) }
    | some d =>
      modify fun s => { s with clock := max s.clock d.due }
      match d.body.head?.bind pauseOf? with
      | some pause =>
        let process := { d.process with status := 0 }
        putDeferred { d with body := d.body.tail, due := d.due + pause, process }
      | none => runDeferred fuel d
      settle fuel upTo stops

/-- Runs a command that is not waited for up to its next pause, or to its end. -/
def runDeferred : Nat → Deferred → Activity Unit
  | 0, _ => throw .endless
  | fuel + 1, d => do
    let before ← get
    let body := d.body.takeWhile fun statement => (pauseOf? statement).isNone
    let rest := d.body.drop body.length
    let signal ← isolated do
      modify fun s =>
        { s with toProcess := d.process, files := { s.files with workingDir := d.workingDir } }
      let departure ← caught do
        runArrived run fuel
        withLast rest.isEmpty (run body)
      if departure.isNone && !rest.isEmpty then
        let s ← get
        putDeferred
          { d with body := rest, process := s.toProcess, workingDir := s.files.workingDir }
      else runAtExit fuel departure
    let after ← get
    set { after with status := before.status, clock := before.clock }
    if !after.deferred.any (·.number == d.number) then
      let ended := signal.elim after.status (128 + ·)
      changeJob d.number fun job => { job with ended := some (ended, signal) }

end

/-- Runs something apart, to its end, and gives the signal that has ended it. -/
def runApart (fuel : Nat) (body : Activity Unit) : Activity (Option Nat) := do
  reuseNumber
  let count := (← get).channels.size
  let signal ← isolated do runAtExit run fuel (← caught body)
  dropChannels count
  return signal

def settleNow (fuel : Nat) : Activity Unit := do
  settle run fuel (some (← get).clock) false

/-- What statements write, without line ends at its end. -/
def takenText (fuel : Nat) (body : List Statement) : Activity (List Char) := do
  let status := (← get).status
  settleNow run fuel
  let (bytes, departure) ← takeOutput do
    tellEnd (← runApart run fuel (withGuard false (run body)))
  depart departure
  modify fun s => { s with taken := some s.status, status }
  return trimTaken bytes

end SymbolAtlas.Shell
