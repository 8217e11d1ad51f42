import SymbolAtlas.Shell.Condition
import SymbolAtlas.Shell.Setting
import SymbolAtlas.Shell.Signal
import SymbolAtlas.Tools.Command
import SymbolAtlas.Tools.Simple

/-!
# The state of a script

What a running script knows and has written, the ways in which it leaves its normal course, and the
small steps on both. A part that runs apart gets a copy of the script's own things, its `Process`,
and shares the rest.
-/

namespace SymbolAtlas.Shell

open Files

/-- Whether a character separates fields, and whether several of them count as one. -/
def isBlankSeparator (separators : String) (c : Char) : Bool :=
  separators.toList.contains c && (c == ' ' || c == '\t' || c == '\n')

def isSeparator (separators : String) (c : Char) : Bool :=
  separators.toList.contains c

structure Variable where
  value : Option String := none
  exported : Bool := false
  readOnly : Bool := false
  deriving Inhabited

/-- What a function has made its own, as it was before. -/
structure Frame where
  shadowed : List (String × Option Variable) := []
  settings : Option Settings := none
  deriving Inhabited

structure Job where
  number : Nat
  process : Nat
  /-- How many commands it consists of. -/
  size : Nat := 1
  /-- How it has ended: the status, and the signal if one has ended it. -/
  ended : Option (Nat × Option Nat) := none
  /-- Whether its end has been seen while another program was waited for. -/
  seen : Bool := false
  /-- Whether the script has waited for it. -/
  awaited : Bool := false
  deriving Inhabited

/-- A program that has been found before, by its name. -/
structure Tracked where
  name : String
  path : String
  /-- Whether the directory has been changed since. -/
  stale : Bool := false

/-- What a script has for itself. -/
structure Process where
  name : String := "sh"
  parameters : List String := []
  bindings : List (String × Variable) := []
  functions : List (String × Command) := []
  aliases : List (String × String) := []
  tracked : List Tracked := []
  /-- The path of the working directory as it has been walked. -/
  directory : String := "/"
  settings : Settings := []
  /-- The number of the process that runs the script, of the part of it that runs apart, and of those
  that have started that, the last one first. -/
  process : Nat := 1000
  own : Nat := 1000
  ancestors : List Nat := []
  status : Nat := 0
  line : Nat := 1
  /-- The line up to which the script has been read. -/
  readLine : Nat := 1
  /-- Whether the script has been given as an argument. -/
  isArgument : Bool := false
  /-- The built-in command that is being carried out, as it is told in complaints. -/
  acting : Option String := none
  /-- What the streams that are open lead to. -/
  streams : List (Nat × Nat) := []
  /-- Whether a failure is looked at by the script and does not end it. -/
  guarded : Bool := false
  /-- How many loops are being run. -/
  loops : Nat := 0
  /-- Whether nothing is run after the command that is being run. -/
  isLast : Bool := false
  frames : List Frame := []
  /-- What is run at the end. -/
  atExit : Option String := none
  /-- How the script has ended, while that is being run. -/
  endStatus : Option Nat := none
  /-- What is run at signals. -/
  atSignals : List (Nat × String) := []
  /-- The commands that are not waited for, the last one first. -/
  jobs : List Job := []
  /-- The process of the last command that is not waited for. -/
  lastJob : Option Nat := none
  /-- Where options are read on: the number of the next argument, and after how many characters of
  the one before. -/
  optionIndex : Nat := 1
  optionOffset : Option Nat := none
  /-- How the last script whose output was taken has ended. -/
  taken : Option Nat := none
  /-- Whether something written by a built-in command was lost. -/
  lost : Bool := false
  /-- The rights that new files do not get. -/
  mask : Nat := 0o022
  /-- The limits that have been set, and under capitals those up to which they may be raised. -/
  limits : List (Char × Option Nat) := []
  deriving Inhabited

inductive Reaction
  | nothing
  | dies
  | acts (action : String)

/-- What a process does at a signal. One of them cannot be dealt with. -/
def Process.reaction (p : Process) (signal : Nat) : Reaction :=
  match if signal = 9 then none else p.atSignals.lookup signal with
  | some action => if action.isEmpty then .nothing else .acts action
  | none => if Signal.isHarmless signal then .nothing else .dies

/-- A command that is not waited for, as far as it has not been run. -/
structure Deferred where
  owner : Nat
  number : Nat
  process : Process
  body : List Statement
  workingDir : Place
  /-- When it goes on. -/
  due : Nat

structure State extends Process where
  files : Tree
  /-- What streams can lead to. -/
  channels : Array Channel := #[]
  /-- What has been written so far, backwards, the outputs that are collected for the script itself
  last. -/
  collected : Array Bytes := #[]
  nextProcess : Nat := 1001
  /-- How many statements may still be run. -/
  turns : Nat := 400000
  /-- The signals that have been sent to processes and have not been looked at. -/
  posted : List (Nat × Nat) := []
  deferred : List Deferred := []
  /-- How long the pauses have been up to now, in millionths of a second. -/
  clock : Nat := 0

inductive Departure
  | exit
  /-- A command has failed in a way that ends the script, or a command that is no part of the
  language. -/
  | failure
  | leave
  | leaveLoop (depth : Nat)
  | nextTurn (depth : Nat)
  | killed (signal : Nat)
  /-- The script has taken more turns than it may. -/
  | endless
  deriving DecidableEq

abbrev Activity := ExceptT Departure (StateM State)

namespace Activity

def setStatus (status : Nat) : Activity Unit :=
  modify fun s => { s with status }

def caught (r : Activity Unit) : Activity (Option Departure) := fun s =>
  match r s with
  | (.ok _, s) => (.ok none, s)
  | (.error d, s) => (.ok (some d), s)

def depart (d : Option Departure) : Activity Unit :=
  match d with
  | some d => throw d
  | none => pure ()

/-! ## Streams -/

/-- What a stream leads to, with its number. -/
def channel? (stream : Nat) : Activity (Option (Nat × Channel)) := do
  let s ← get
  return (s.streams.lookup stream).bind fun number => s.channels[number]?.map (number, ·)

def connect (stream number : Nat) : Activity Unit :=
  modify fun s => { s with streams := (stream, number) :: s.streams.filter (·.1 != stream) }

def disconnect (stream : Nat) : Activity Unit :=
  modify fun s => { s with streams := s.streams.filter (·.1 != stream) }

def addChannel (c : Channel) : Activity Nat := do
  let number := (← get).channels.size
  modify fun s => { s with channels := s.channels.push c }
  return number

/-- Drops the channels from a number on that no stream leads to. -/
def dropChannels (count : Nat) : Activity Unit :=
  modify fun s =>
    let uses := s.streams :: s.deferred.map (·.process.streams)
    let needed := uses.flatten.foldl (fun n (_, number) => max n (number + 1)) count
    { s with channels := s.channels.take needed }

def writeTo (number : Nat) (bytes : Bytes) : Activity (Option Fault) := do
  let s ← get
  if bytes.isEmpty then return none
  match s.channels[number]? with
  | some (.collected index) =>
    set { s with collected := s.collected.modify index fun old => bytes.reverseAux old }
    return none
  | some (.file place offset access) =>
    if !access.writes then return some badStream
    let old := contentsAt s.files place
    let offset := if access.appends then old.length else offset
    let contents := if offset = old.length then old ++ bytes else overwritten old bytes offset
    set { s with
      files := s.files.put place (.file contents),
      channels := s.channels.set! number (.file place (offset + bytes.length) access) }
    return none
  | some .nothing => return none
  | some .full => return some noSpace
  | _ => return some badStream

def write (stream : Nat) (bytes : Bytes) : Activity (Option Fault) := do
  match ← channel? stream with
  | some (number, _) => writeTo number bytes
  | none => return if bytes.isEmpty then none else some badStream

/-- Writes for a built-in command. -/
def emit (stream : Nat) (bytes : Bytes) : Activity Unit := do
  if (← write stream bytes).isSome && stream = 1 then modify fun s => { s with lost := true }

def emitText (stream : Nat) (text : String) : Activity Unit :=
  emit stream (toBytes text)

def readLeft (stream : Nat) : Activity (Except Fault Bytes) := do
  let s ← get
  match ← channel? stream with
  | some (_, c) => return c.left s.files
  | none => return .error badStream

/-- Takes note of what is left after something has been read through a stream. -/
def keepLeft (stream : Nat) (rest : Bytes) : Activity Unit := do
  match ← channel? stream with
  | some (number, c) =>
    modify fun s => { s with channels := s.channels.set! number (c.advance s.files rest) }
  | none => return

def view : Activity Condition.View := do
  let s ← get
  return { files := s.files,
           streams := s.streams.filterMap fun (stream, number) =>
             s.channels[number]?.map fun c => (stream, c.kind) }

/-! ## Complaints -/

/-- Tells what is wrong, with the script's name, the line and the command that is carried out. -/
def complain (text : String) : Activity Unit := do
  let s ← get
  let command := s.acting.elim "" (· ++ ": ")
  emitText 2 (s.name ++ ": " ++ toString s.line ++ ": " ++ command ++ text ++ "\n")

def exitWith {α : Type} (status : Nat) : Activity α := do
  setStatus status
  throw .exit

/-- Fails with a complaint. -/
def abort {α : Type} (text : String) : Activity α := do
  complain text
  setStatus 2
  throw .failure

/-- Runs something under the name of a built-in command. -/
def actingAs (command : Option String) (r : Activity Unit) : Activity Unit := do
  let before := (← get).acting
  modify fun s => { s with acting := command }
  let departure ← caught r
  modify fun s => { s with acting := before }
  depart departure

/-- Runs something whose failures do not end the script. -/
def tolerantly (r : Activity Unit) : Activity Unit := do
  match ← caught r with
  | some .failure => pure ()
  | departure => depart departure

/-! ## Variables -/

def valueOf? (name : String) : Activity (Option String) := do
  return ((← get).bindings.lookup name).bind (·.value)

def natOfText (text : String) : Activity Nat :=
  match Condition.number text with
  | .ok n => if 0 ≤ n && n < 0x80000000 then return n.toNat else abort ("Illegal number: " ++ text)
  | .error complaint => abort complaint

/-- What else changes with the value of a variable. -/
def noteValue (name value : String) : Activity Unit := do
  if name = "OPTIND" then
    let index ← natOfText value
    modify fun s => { s with optionIndex := max index 1, optionOffset := none }
  else if name = "PATH" then modify fun s => { s with tracked := [] }

def changeVariable (name : String) (f : Variable → Variable) : Activity Unit :=
  modify fun s =>
    let old := (s.bindings.lookup name).getD {}
    { s with bindings := (name, f old) :: s.bindings.filter (·.1 != name) }

def restoreVariable (name : String) (old : Option Variable) : Activity Unit :=
  modify fun s =>
    { s with
      bindings := (old.map (name, ·)).toList ++ s.bindings.filter (·.1 != name)
      tracked := if name = "PATH" then [] else s.tracked }

/-- Refuses to change a variable that is for reading only. -/
def checkWritable (name : String) : Activity Unit := do
  if ((← get).bindings.lookup name).any (·.readOnly) then abort (name ++ ": is read only")

def assign (name value : String) : Activity Unit := do
  checkWritable name
  noteValue name value
  let exported := (← get).settings.has .exportsAll
  changeVariable name fun v => { v with value := some value, exported := v.exported || exported }

def removeVariable (name : String) : Activity Unit := do
  checkWritable name
  if ((← get).bindings.lookup name).isSome then noteValue name ""
  modify fun s => { s with bindings := s.bindings.filter (·.1 != name) }

def separators : Activity String := do
  return (← valueOf? "IFS").getD " \t\n"

/-- What stands between parameters that are put together. -/
def joint : Activity String := do
  return String.ofList ((← separators).toList.take 1)

def parameter? (name : String) : Activity (Option String) := do
  let s ← get
  match name with
  | "#" => return some (toString s.parameters.length)
  | "?" => return some (toString s.status)
  | "$" => return some (toString s.process)
  | "!" => return s.lastJob.map toString
  | "-" => return some s.settings.letters
  | "0" => return some s.name
  | _ =>
    if name.toList.all Char.isDigit then
      let index := name.toList.foldl (fun n c => n * 10 + (c.toNat - '0'.toNat)) 0
      return s.parameters[index - 1]?
    else valueOf? name

def exported : Activity (List (String × Variable)) := do
  return (← get).bindings.filter fun (_, v) => v.exported && v.value.isSome

/-! ## Signals -/

/-- Sends a signal to a process, which looks at it later. -/
def post (process signal : Nat) : Activity Unit :=
  modify fun s => { s with posted := s.posted ++ [(process, signal)] }

/-- The signals that have come, which are forgotten then. -/
def takeSignals : Activity (List Nat) := do
  let s ← get
  let mine := s.posted.filter fun (process, _) => process == s.own
  if !mine.isEmpty then set { s with posted := s.posted.filter fun (process, _) => process != s.own }
  return mine.map (·.2)

/-- The first signal that has come at which something is run. -/
def actingSignal? : Activity (Option Nat) := do
  let s ← get
  let mine := s.posted.filter fun (process, _) => process == s.own
  return (mine.find? fun (_, signal) => match s.reaction signal with
    | .acts _ => true
    | _ => false).map (·.2)

/-- Ends the script if a signal has come that it dies of. -/
def dieOfSignals : Activity Unit := do
  let s ← get
  for (process, signal) in s.posted do
    if process = s.own then match s.reaction signal with
      | .dies => throw (.killed signal)
      | _ => pure ()

/-! ## Running apart -/

/-- The state after something that has run apart: only what is shared is kept, and how it ended. -/
def rejoin (before after : State) : State :=
  { after with
    toProcess := { before.toProcess with status := after.status % 256 }
    files := { after.files with workingDir := before.files.workingDir } }

/-- Forgets the first command that has been waited for, whose number the next command gets. -/
def reuseNumber : Activity Unit :=
  modify fun s =>
    let isFree (n : Nat) : Bool := match s.jobs.find? (·.number == n) with
      | some job => job.ended.isSome && job.awaited
      | none => true
    let number := ((List.range (s.jobs.length + 1)).find? fun n => isFree (n + 1)).getD 0 + 1
    { s with jobs := s.jobs.filter (·.number != number) }

/-- Runs something whose changes are forgotten, and gives the signal that has ended it. An exit ends
that part only. -/
def isolated (r : Activity Unit) : Activity (Option Nat) := do
  let before ← get
  set { before with
    own := before.nextProcess, ancestors := before.own :: before.ancestors
    nextProcess := before.nextProcess + 1, atExit := none, isLast := true, jobs := []
    readLine := if before.isArgument then 1 else before.readLine
    atSignals := before.atSignals.filter (·.2.isEmpty) }
  let departure ← caught r
  set (rejoin before (← get))
  dieOfSignals
  match departure with
  | some .endless => throw .endless
  | some (.killed signal) => return some signal
  | _ => return none

/-- Runs something and takes what it writes, together with how it has departed. -/
def takeOutput (r : Activity Unit) : Activity (Bytes × Option Departure) := do
  let s ← get
  let index := s.collected.size
  set { s with collected := s.collected.push [] }
  connect 1 (← addChannel (.collected index))
  let departure ← caught r
  let t ← get
  set { t with
    collected := t.collected.take index, streams := s.streams,
    channels := t.channels.take s.channels.size }
  return ((t.collected[index]?).getD [] |>.reverse, departure)

/-- Runs something whose failures are looked at, or are not. -/
def withGuard (guarded : Bool) (r : Activity Unit) : Activity Unit := do
  let before := (← get).guarded
  modify fun s => { s with guarded }
  let departure ← caught r
  modify fun s => { s with guarded := before }
  depart departure

/-- Runs something inside one loop more, or outside all of them. -/
def withLoops (loops : Nat) (r : Activity Unit) : Activity Unit := do
  let before := (← get).loops
  modify fun s => { s with loops }
  let departure ← caught r
  modify fun s => { s with loops := before }
  depart departure

/-- Runs something after which nothing is run, or something is. -/
def withLast (isLast : Bool) (r : Activity Unit) : Activity Unit := do
  let before := (← get).isLast
  modify fun s => { s with isLast }
  let departure ← caught r
  modify fun s => { s with isLast := before }
  depart departure

/-- Runs another text before the script is read on. -/
def withReading (r : Activity Unit) : Activity Unit := do
  let before := (← get).readLine
  let departure ← caught r
  modify fun s => { s with readLine := before }
  depart departure

/-- Runs a function's body with variables of its own. -/
def inFrame (r : Activity Unit) : Activity Unit := do
  modify fun s => { s with frames := {} :: s.frames }
  let departure ← caught r
  let frame := (← get).frames.headD {}
  for (name, old) in frame.shadowed do restoreVariable name old
  modify fun s =>
    { s with frames := s.frames.tail, settings := frame.settings.getD s.settings }
  depart departure

end Activity

end SymbolAtlas.Shell
