import SymbolAtlas.Tools.Work

namespace SymbolAtlas.Tool

open Files

/-- How the text of a line is shown. -/
structure CopyMode where
  numbered : Bool := false
  numberedFull : Bool := false
  showsEnds : Bool := false
  showsTabs : Bool := false
  squeezes : Bool := false
  showsHidden : Bool := false
  deriving DecidableEq

/-- The mode with an option's letter. -/
def CopyMode.add? (m : CopyMode) : Char → Option CopyMode
  | 'n' => some { m with numbered := true }
  | 'b' => some { m with numberedFull := true }
  | 'E' => some { m with showsEnds := true }
  | 'T' => some { m with showsTabs := true }
  | 's' => some { m with squeezes := true }
  | 'v' => some { m with showsHidden := true }
  | 'e' => some { m with showsEnds := true, showsHidden := true }
  | 't' => some { m with showsTabs := true, showsHidden := true }
  | 'A' => some { m with showsEnds := true, showsTabs := true, showsHidden := true }
  | 'u' => some m
  | _ => none

/-- A byte below 128 that does not show, with a caret. -/
def careted (b : UInt8) : Bytes :=
  if b < 32 then [0x5E, b + 64] else if b = 127 then [0x5E, 0x3F] else [b]

def CopyMode.showByte (m : CopyMode) (b : UInt8) : Bytes :=
  if b = 9 then if m.showsTabs then careted b else [b]
  else if !m.showsHidden then [b]
  else if b < 128 then careted b
  else [0x4D, 0x2D] ++ careted (b - 128)

/-- Where the copy of some lines stands: the number of the last line, whether it was empty, and
whether a line begins. -/
structure CopyPlace where
  number : Nat := 0
  lastEmpty : Bool := false
  atStart : Bool := true

/-- The lines of a file as they are shown, and where the copy stands after them. -/
def CopyMode.showLines (m : CopyMode) (here : CopyPlace) : Bytes → Bytes × CopyPlace
  | [] => ([], here)
  | b :: rest =>
    let isEmpty := here.atStart && b == 10
    if isEmpty && here.lastEmpty && m.squeezes then m.showLines here rest
    else
      let counts := here.atStart && if m.numberedFull then b != 10 else m.numbered
      let number := if counts then here.number + 1 else here.number
      let digits := Nat.toDigits 10 number
      let front := if counts then List.replicate (6 - digits.length) ' ' ++ digits ++ ['\t'] else []
      let shown := if b = 10 then (if m.showsEnds then [0x24] else []) ++ [10] else m.showByte b
      let (more, last) := m.showLines ⟨number, isEmpty, b == 10⟩ rest
      (Shell.toBytes (String.ofList front) ++ shown ++ more, last)

/-- What a name given to the program stands for. -/
structure CopySource where
  contents : Source
  /-- What is read to the end with it. -/
  channel : Option Nat := none
  /-- The file that it is, and how much of it lies before what is read. -/
  file : Option (Place × Nat) := none

/-- What is read of a stream. -/
def streamSource (w : Work) (inlet : Inlet) : CopySource :=
  { contents := if w.taken.contains inlet.channel then inlet.left.map fun _ => [] else inlet.left
    channel := some inlet.channel
    file := inlet.file }

/-- What is read for a name. A hyphen stands for what the program is given. -/
def copySource (s : Setup) (w : Work) (name : String) : CopySource :=
  if name = "-" then
    match s.inlets.lookup 0 with
    | some inlet => streamSource w inlet
    | none => { contents := .error Shell.badStream }
  else
    let path : Path := ⟨Shell.toText name⟩
    match s.files.place path with
    | .error fault => { contents := .error fault }
    | .ok place =>
      match Machine.Device.at? place with
      | some .terminal => { contents := .error (.other "No such device or address") }
      | some (.stream number) =>
        match s.inlets.lookup number with
        | none => { contents := .error .missing }
        | some inlet =>
          match inlet.again, inlet.file with
          | some contents, some (place, _) => { contents := .ok contents, file := some (place, 0) }
          | _, _ => streamSource w inlet
      | some _ => { contents := .ok [] }
      | none => { contents := s.files.read path, file := some (place, 0) }

/-- Whether a file that is read is the one that is written, and what is written comes after it. -/
def readsOutput (s : Setup) (w : Work) (source : CopySource) : Bool :=
  match source.file, s.output with
  | some (place, before), some (output, offset) =>
    place == output && before < offset + (w.bytes false).length
  | _, _ => false

/-- Adds one file to what has been copied, and tells where the copy stands. -/
def copyFile (s : Setup) (m : CopyMode) (state : Work × CopyPlace) (name : String) :
    Work × CopyPlace :=
  let (w, place) := state
  let source := copySource s w name
  match source.contents with
  | .ok contents =>
    if readsOutput s w source then
      (w.complain s (toldName name ++ ": input file is output file") 1, place)
    else
      let w := { w with taken := source.channel.toList ++ w.taken }
      let (shown, place) := if m = {} then (contents, place) else m.showLines place contents
      (w.write shown, place)
  | .error fault => (w.complain s (toldName name ++ ": " ++ fault.reason) 1, place)

/-- The mode with the options in one argument, or the complaint about one that there is not. -/
def CopyMode.addAll (m : CopyMode) : List Char → Except String CopyMode
  | [] => .ok m
  | c :: rest =>
    match m.add? c with
    | some m => m.addAll rest
    | none => .error ("invalid option -- '" ++ String.ofList [c] ++ "'")

/-- The mode and the files that the arguments of `cat` ask for. After two hyphens everything is a
file. -/
def copyArguments (m : CopyMode) : List String → Except String (CopyMode × List String)
  | [] => .ok (m, [])
  | "--" :: rest => .ok (m, rest)
  | argument :: rest => do
    match argument.toList with
    | '-' :: '-' :: _ => throw ("unrecognized option '" ++ argument ++ "'")
    | '-' :: first :: letters => copyArguments (← m.addAll (first :: letters)) rest
    | _ =>
      let (m, files) ← copyArguments m rest
      return (m, argument :: files)

/-- What the program `cat` does. -/
def runCopy (s : Setup) (arguments : List String) : Work :=
  match copyArguments {} arguments with
  | .ok (m, files) =>
    if (s.kinds.lookup 1).isNone then
      Work.complain {} s "standard output: Bad file descriptor" 1
    else
      let files := if files.isEmpty then ["-"] else files
      let (w, _) := files.foldl (copyFile s m) ({}, {})
      if files.contains "-" && (s.kinds.lookup 0).isNone then
        w.complain s "closing standard input: Bad file descriptor" 1
      else w
  | .error complaint => .refuse s complaint 1

end SymbolAtlas.Tool
