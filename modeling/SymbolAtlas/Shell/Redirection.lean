import SymbolAtlas.Shell.State

namespace SymbolAtlas.Shell

open Files Activity

/-- A redirection whose target is known, where a copied stream can be none. -/
inductive Direction
  | file (stream : Nat) (opening : Opening) (name : String)
  | copy (stream : Nat) (source : Option Nat)
  | document (stream : Nat) (body : Word)

def Direction.stream : Direction → Nat
  | file stream _ _ => stream
  | copy stream _ => stream
  | document stream _ => stream

/-- What is told of a file that cannot be opened. -/
def openingComplaint (creates : Bool) (name : String) (fault : Fault) : String :=
  let isMissing := fault == .missing || fault == .notDirectory
  let reason := if !isMissing then fault.reason
    else if creates then "Directory nonexistent" else "No such file"
  (if creates then "cannot create " else "cannot open ") ++ name ++ ": " ++ reason

/-- Opens the ordinary file or the directory at a path: the number of the channel. -/
def openFile (opening : Opening) (path : Path) : Activity (Except Fault Nat) := do
  let s ← get
  if opening == .replace && s.settings.has .keepsFiles && s.files.isFile path then
    return .error (.other "File exists")
  match openOrdinary s.files opening path with
  | .ok (files, channel) =>
    set { s with files }
    .ok <$> addChannel channel
  | .error fault => return .error fault

/-- Opens what stands at a path: the number of the channel. A name of a stream opens the file that the
stream leads to once more, or shares anything else. -/
def openPath (opening : Opening) (name : String) : Activity (Except Fault Nat) := do
  let path : Path := ⟨toText name⟩
  match ((← get).files.place path).toOption.bind Machine.Device.at? with
  | none => openFile opening path
  | some .null => .ok <$> addChannel .nothing
  | some .full => .ok <$> addChannel .full
  | some .terminal => return .error (.other "No such device or address")
  | some (.stream stream) =>
    match ← channel? stream with
    | none => return .error .missing
    | some (_, .file place _ _) => openFile opening ⟨"/" ++ "/".intercalate place⟩
    | some (number, .directory) => return if opening.creates then .error .isDirectory else .ok number
    | some (number, _) => return .ok number

/-- Makes a stream the same as another one, and tells what hinders that. The stream is closed before
in any case. -/
def copyStream (stream source : Nat) : Activity (Option String) := do
  if stream = source then return none
  match ← channel? source with
  | some (number, _) =>
    connect stream number
    return none
  | none =>
    disconnect stream
    return some (toString source ++ ": Bad file descriptor")

/-- Carries out a redirection of a file or of a stream, and tells what hinders that. -/
def direct : Direction → Activity (Option String)
  | .file stream opening name => do
    match ← openPath opening name with
    | .ok number =>
      connect stream number
      return none
    | .error fault => return some (openingComplaint opening.creates name fault)
  | .copy stream (some source) => copyStream stream source
  | .copy stream none => do
    disconnect stream
    return none
  | .document .. => return none

def restoreStreams (old : List (Nat × Nat)) (streams : List Nat) : Activity Unit :=
  modify fun s =>
    let kept := s.streams.filter fun (stream, _) => !streams.contains stream
    { s with streams := old.filter (fun (stream, _) => streams.contains stream) ++ kept }

/-- The stream that a copy's target names: none to close one. Any other word ends the script, which is
told of the line that has been read last. -/
def copySource (text : String) : Activity (Option Nat) := do
  match text.toList with
  | ['-'] => return none
  | [digit] => if digit.isDigit then return some (digit.toNat - '0'.toNat) else refuse
  | _ => refuse
where
  refuse : Activity (Option Nat) := do
    modify fun s => { s with line := s.readLine }
    abort "Syntax error: Bad fd number"

end SymbolAtlas.Shell
