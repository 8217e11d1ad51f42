import SymbolAtlas.Shell.State

namespace SymbolAtlas.Shell

open Files Activity

/-! ## Tools -/

/-- What can be read of what a stream leads to. -/
def inletOf (t : Tree) (number : Nat) (channel : Channel) : Inlet :=
  let file := match channel with
    | .file place offset _ => some (place, offset)
    | _ => none
  { channel := number, left := channel.left t, file, again := file.map fun p => contentsAt t p.1 }

/-- What a tool finds that is called by a name. -/
def setupFor (name : String) : Activity Setup := do
  let s ← get
  let channels := s.streams.filterMap fun (stream, number) =>
    s.channels[number]?.map fun channel => (stream, number, channel)
  let output := match channels.lookup 1 with
    | some (_, .file place offset access) =>
      some (place, if access.appends then (contentsAt s.files place).length else offset)
    | _ => none
  return { name, files := s.files, output
           inlets := channels.map fun (stream, number, channel) =>
             (stream, inletOf s.files number channel)
           kinds := channels.map fun (stream, _, channel) => (stream, channel.kind) }

/-- Writes what a tool has written. Output that cannot be written ends it. -/
def writeParts (name : String) (lostStatus : Nat) : List (Bool × Bytes) → Activity Unit
  | [] => return
  | (true, bytes) :: rest => do
    let _ ← write 2 bytes
    writeParts name lostStatus rest
  | (false, bytes) :: rest => do
    match ← write 1 bytes with
    | none => writeParts name lostStatus rest
    | some fault =>
      let _ ← write 2 (toBytes (name ++ ": write error: " ++ fault.reason ++ "\n"))
      setStatus lostStatus

/-- Takes over what a tool has done that is called by a name. -/
def takeWork (name : String) (w : Work) : Activity Unit := do
  modify fun s =>
    let emptied (channels : Array Channel) (number : Nat) : Array Channel :=
      channels.modify number (·.advance s.files [])
    { s with channels := w.taken.foldl emptied s.channels }
  setStatus w.status
  writeParts name w.lostStatus w.parts

/-! ## Scripts -/

/-- A variable that a program is given is added to its own. Some are not taken over. -/
def receiveVariable (bindings : List (String × Variable)) (given : String × Variable) :
    List (String × Variable) :=
  if ["IFS", "OPTIND", "PPID"].contains given.1 then bindings
  else given :: bindings.filter (·.1 != given.1)

def firstVariables (parent : Nat) : List (String × Variable) :=
  [("IFS", " \t\n"), ("OPTIND", "1"), ("PPID", toString parent), ("PS1", "# "), ("PS2", "> "),
    ("PS4", "+ ")].map fun (name, value) => (name, { value := some value })

/-- The path of the working directory as a script is given it: the value of `PWD` if that is such a
path. -/
def givenDirectory (t : Tree) (bindings : List (String × Variable)) : String :=
  let own := ofText ("/" ++ "/".intercalate t.workingDir)
  match (bindings.lookup "PWD").bind (·.value) with
  | some path =>
    if path.startsWith "/" && (t.place ⟨toText path⟩).toOption = some t.workingDir then path else own
  | none => own

/-- Runs a script as a program of its own, with the variables that programs see, and gives the signal
that has ended it. It can take the place of the script that starts it. -/
def asProgram (name : String) (replaces : Bool) (script : Activity Unit) :
    Activity (Option Nat) := do
  let before ← get
  let own := if replaces then before.own else before.nextProcess
  let ancestors := if replaces then before.ancestors else before.own :: before.ancestors
  let bindings := (← exported).foldl receiveVariable (firstVariables (ancestors.headD 1))
  let directory := givenDirectory before.files bindings
  let pwd : Variable := { value := some directory, exported := true }
  set { before with
    toProcess :=
      { name, directory, process := own, own, ancestors
        bindings := ("PWD", pwd) :: bindings.filter (·.1 != "PWD")
        streams := before.streams, mask := before.mask, limits := before.limits
        atSignals := before.atSignals.filter (·.2.isEmpty) }
    nextProcess := before.nextProcess + 1 }
  let departure ← caught script
  set (rejoin before (← get))
  dieOfSignals
  match departure with
  | some (.killed signal) => return some signal
  | some .endless => throw .endless
  | _ => return none

def tellSignal (signal : Nat) : Activity Unit := do
  if signal ≠ 2 && signal ≠ 13 then emitText 2 (Signal.description signal ++ "\n")
  setStatus (128 + signal)

end SymbolAtlas.Shell
