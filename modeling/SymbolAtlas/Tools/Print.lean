import SymbolAtlas.Shell.Format
import SymbolAtlas.Tools.Work

namespace SymbolAtlas.Tool

/-- How the program `echo` writes its arguments. -/
structure EchoMode where
  newline : Bool := true
  escapes : Bool := false

/-- The mode after an argument that consists of mode letters. -/
def EchoMode.take? (m : EchoMode) (argument : String) : Option EchoMode :=
  match argument.toList with
  | '-' :: letters =>
    if letters.isEmpty || letters.any fun c => !(['n', 'e', 'E'].contains c) then none
    else some (letters.foldl (fun m c =>
      if c = 'n' then { m with newline := false } else { m with escapes := c == 'e' }) m)
  | _ => none

/-- The arguments on one line. -/
def EchoMode.write (m : EchoMode) (style : Shell.EscapeStyle) (arguments : List String) : Bytes :=
  let text := " ".intercalate arguments
  let written := if m.escapes then Shell.unescape style text else .ofChars text.toList
  (written.followedBy (.ofChars (if m.newline then ['\n'] else []))).bytes

def echoBytes (m : EchoMode) : List String → Bytes
  | [] => m.write { hexadecimal := true } []
  | argument :: rest =>
    match m.take? argument with
    | some m => echoBytes m rest
    | none => m.write { hexadecimal := true } (argument :: rest)

/-- What a script's own `echo` writes: it knows one mode, and backslash sequences always count. -/
def scriptEchoBytes (arguments : List String) : Bytes :=
  match arguments with
  | "-n" :: rest => { newline := false, escapes := true : EchoMode }.write {} rest
  | _ => { escapes := true : EchoMode }.write {} arguments

/-- An argument between single quotes, with backslashes before the quotes and backslashes in it. -/
def quotedArgument (argument : String) : String :=
  let inner := argument.toList.flatMap fun c => if c = '\'' || c = '\\' then ['\\', c] else [c]
  "'" ++ String.ofList inner ++ "'"

/-- What is told of an argument, or of a pattern, by the program `printf`. -/
def toldComplaint : Shell.Complaint → String
  | .notNumeric argument => quotedArgument argument ++ ": expected a numeric value"
  | .partlyNumeric argument => quotedArgument argument ++ ": value not completely converted"
  | .outOfRange argument => quotedArgument argument ++ ": Numerical result out of range"
  | .invalid place => place ++ ": invalid conversion specification"
  | .unfinished => "%: invalid conversion specification"
  | .tooLong => "write error"

/-- What the program `printf` does. -/
def runPrint (s : Setup) (arguments : List String) : Work :=
  let arguments := if arguments.head? = some "--" then arguments.tail else arguments
  match arguments with
  | [] => .refuse s "missing operand" 1
  | pattern :: rest =>
    let style : Shell.EscapeStyle := { zeroFirst := false, hexadecimal := true, quotes := true }
    let filled := Shell.fill style pattern.toList (rest.length + 1) rest
    let w : Work :=
      filled.complaints.foldl (fun (w : Work) c => w.complain s (toldComplaint c) 1) {}
    let w := w.write filled.written.bytes
    match filled.left with
    | [] => w
    | extra :: _ =>
      w.complain s
        ("warning: ignoring excess arguments, starting with " ++ quotedArgument extra) w.status

end SymbolAtlas.Tool
