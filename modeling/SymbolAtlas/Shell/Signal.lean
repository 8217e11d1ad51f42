import SymbolAtlas.Text.Decimal

namespace SymbolAtlas.Shell.Signal

/-- The names of the signals from the first one on. Some have none but their number. -/
def ordinaryNames : List String :=
  ["HUP", "INT", "QUIT", "ILL", "TRAP", "ABRT", "BUS", "FPE", "KILL", "USR1", "SEGV", "USR2", "PIPE",
    "ALRM", "TERM", "16", "CHLD", "CONT", "STOP", "TSTP", "TTIN", "TTOU", "URG", "XCPU", "XFSZ",
    "VTALRM", "PROF", "WINCH", "IO", "PWR", "SYS", "32", "33"]

/-- The signals after those, in two halves that are counted from the first and from the last one. -/
def furtherNames : List String :=
  "RTMIN" :: (List.range 15).map (fun n => "RTMIN+" ++ toString (n + 1)) ++
    (List.range 14).map (fun n => "RTMAX-" ++ toString (14 - n)) ++ ["RTMAX"]

def names : List String :=
  ordinaryNames ++ furtherNames

def last : Nat :=
  names.length

/-- The name of a signal; zero is the end of a script. -/
def name (n : Nat) : String :=
  if n = 0 then "EXIT" else (names[n - 1]?).getD (toString n)

def ofText? (s : String) : Option Nat :=
  let capitals := String.ofList (s.toList.map Char.toUpper)
  if capitals = "EXIT" then some 0
  else if !s.isEmpty && s.toList.all Char.isDigit then
    (Text.readU32 s.toList).bind fun n => if n.toNat ≤ last then some n.toNat else none
  else (names.idxOf? capitals).map (· + 1)

/-- The signal with a name or a number that can be sent: the end of a script by its number only. -/
def sendable? (s : String) : Option Nat :=
  (ofText? s).filter fun n => n ≠ 0 || s.toList.all Char.isDigit

/-- The signals that a process does nothing at. -/
def isHarmless (n : Nat) : Bool :=
  [0, 17, 18, 23, 28].contains n

/-- What is told of a program that a signal has ended. -/
def description (n : Nat) : String :=
  let ordinary := ["Hangup", "Interrupt", "Quit", "Illegal instruction", "Trace/breakpoint trap",
    "Aborted", "Bus error", "Floating point exception", "Killed", "User defined signal 1",
    "Segmentation fault", "User defined signal 2", "Broken pipe", "Alarm clock", "Terminated",
    "Stack fault", "Child exited", "Continued", "Stopped (signal)", "Stopped", "Stopped (tty input)",
    "Stopped (tty output)", "Urgent I/O condition", "CPU time limit exceeded",
    "File size limit exceeded", "Virtual timer expired", "Profiling timer expired",
    "Window changed", "I/O possible", "Power failure", "Bad system call"]
  match ordinary[n - 1]? with
  | some text => text
  | none => if n < 34 then "Unknown signal " ++ toString n else "Real-time signal " ++ toString (n - 34)

end SymbolAtlas.Shell.Signal
