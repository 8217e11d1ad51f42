import SymbolAtlas.Shell.Channel

namespace SymbolAtlas

/-- What can be read, or why nothing can. -/
abbrev Source := Except Files.Fault Bytes

/-- What a tool can read through an open stream. -/
structure Inlet where
  /-- The number of what the stream leads to. Streams with one number share what they read. -/
  channel : Nat
  left : Source
  /-- What is read when it is opened by its name, unless that is what is left. -/
  again : Option Bytes := none
  /-- The file that is read, and how much of it lies before what is left. -/
  file : Option (Files.Place × Nat) := none

/-- What a tool finds when it is run: the name that it is called by, the files, and its streams. -/
structure Setup where
  name : String
  files : Files.Tree
  inlets : List (Nat × Inlet) := []
  /-- What kinds of things the open streams lead to. -/
  kinds : List (Nat × Shell.FileKind) := []
  /-- The file that the output goes to, and how much of it lies before what is written. -/
  output : Option (Files.Place × Nat) := none

/-- What a tool has done. Each part of what it has written is a complaint or is not. -/
structure Work where
  parts : List (Bool × Bytes) := []
  status : Nat := 0
  /-- What has been read to the end. -/
  taken : List Nat := []
  /-- The status if the output cannot be written. -/
  lostStatus : Nat := 1
  /-- How long it has paused, in millionths of a second. -/
  pause : Nat := 0

namespace Work

def write (w : Work) (bytes : Bytes) : Work :=
  { w with parts := w.parts ++ [(false, bytes)] }

def writeText (w : Work) (text : String) : Work :=
  w.write (Shell.toBytes text)

def complain (w : Work) (s : Setup) (text : String) (status : Nat) : Work :=
  { w with parts := w.parts ++ [(true, Shell.toBytes (s.name ++ ": " ++ text ++ "\n"))], status }

def refuse (s : Setup) (text : String) (status : Nat) : Work :=
  complain {} s (text ++ "\nTry '" ++ s.name ++ " --help' for more information.") status

/-- The bytes that are complaints, or the others. -/
def bytes (w : Work) (complaints : Bool) : Bytes :=
  w.parts.flatMap fun (isComplaint, bytes) => if isComplaint == complaints then bytes else []

end Work

namespace Files

/-- The reason that a fault gives, without its number. -/
def Fault.reason (fault : Fault) : String :=
  (fault.message.splitOn " (os error").headD ""

end Files

/-! ## Names in complaints -/

/-- A byte in base eight, after a backslash. -/
def octalEscape (c : Char) : List Char :=
  let digits := Nat.toDigits 8 c.toNat
  '\\' :: List.replicate (3 - digits.length) '0' ++ digits

/-- A byte that does not show, after a backslash. -/
def hiddenEscape (c : Char) : List Char :=
  match c with
  | '\x07' => ['\\', 'a']
  | '\x08' => ['\\', 'b']
  | '\t' => ['\\', 't']
  | '\n' => ['\\', 'n']
  | '\x0b' => ['\\', 'v']
  | '\x0c' => ['\\', 'f']
  | '\r' => ['\\', 'r']
  | c => octalEscape c

/-- The inside of single quotes, where other quotes stand around what does not show and a single
quote stands alone. `hidden` tells whether such other quotes are open. -/
def quotedInside (hidden : Bool) : List Char → List Char
  | [] => []
  | c :: rest =>
    if c < ' ' || '~' < c then
      (if hidden then [] else ['\'', '$', '\'']) ++ hiddenEscape c ++ quotedInside true rest
    else
      (if hidden then ['\'', '\''] else []) ++
        (if c = '\'' then ['\'', '\\', '\'', '\''] else [c]) ++ quotedInside false rest

def quotedName (name : String) : String :=
  let isSimple (c : Char) : Bool := c.isAlphanum || "%+,-./:]_ '".toList.contains c
  if name.toList.contains '\'' && name.toList.all isSimple then "\"" ++ name ++ "\""
  else String.ofList ('\'' :: quotedInside false name.toList ++ ['\''])

/-- A name as it is told in a complaint, in quotes if it needs them. -/
def toldName (name : String) : String :=
  let s := name.toList
  let needsQuotes (c : Char) : Bool :=
    c < ' ' || '~' < c || " !\"$&'()*:;<=>?[\\^|".toList.contains c || c = Char.ofNat 96
  let marked := s.head? = some '#' || s.head? = some '~' || s = ['\x7b'] || s = ['\x7d']
  if !s.isEmpty && !s.any needsQuotes && !marked then name else quotedName name

end SymbolAtlas
