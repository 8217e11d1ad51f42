import SymbolAtlas.Shell.Run.Word

namespace SymbolAtlas.Shell

open Files Activity

variable (run : List Statement → Activity Unit)

def directions (fuel : Nat) : List Redirect → Activity (List Direction)
  | [] => return []
  | r :: rest => do
    let first ← match r with
      | .file stream opening target => pure (.file stream opening (← wordText run fuel target))
      | .copy stream target => pure (.copy stream (← copySource (← wordText run fuel target)))
      | .document stream body => pure (.document stream body)
    return first :: (← directions fuel rest)

/-- The text of a document, and how its expansion has departed. -/
def documentText (fuel : Nat) (body : Word) : Activity (String × Option Departure) := fun s =>
  match wordText run fuel body s with
  | (.ok text, s) => (.ok (text, none), s)
  | (.error d, s) => (.ok ("", some d), s)

/-- Carries out redirections one after another and says whether that has worked. -/
def directAll (fuel : Nat) : List Direction → Activity Bool
  | [] => return true
  | .document stream body :: rest => do
    let (text, departure) ← documentText run fuel body
    match departure with
    | some .failure => return false
    | departure => depart departure
    connect stream (← addChannel (.text (toBytes text)))
    directAll fuel rest
  | d :: rest => do
    match ← direct d with
    | none => directAll fuel rest
    | some complaint =>
      complain complaint
      return false

def withRedirects (fuel : Nat) (redirects : List Redirect) (body : Activity Unit) : Activity Bool := do
  if redirects.isEmpty then
    body
    return true
  let directions ← directions run fuel redirects
  let before ← get
  let worked ← directAll run fuel directions
  let departure ← if worked then caught body else pure none
  restoreStreams before.streams (directions.map Direction.stream)
  dropChannels before.channels.size
  depart departure
  return worked

/-- Shows a command on the stream that a channel stands for, after the mark for that. -/
def traceCommand (fuel : Nat) (number : Option Nat) (texts : List String) : Activity Unit := do
  let mark := (← valueOf? "PS4").getD ""
  let s ← get
  let mark ← match quotedText mark.toList with
    | .ok word =>
      modify fun s => { s with settings := s.settings.switch false .traces }
      wordText run fuel word
    | .error _ => pure mark
  modify fun t => { t with settings := s.settings, taken := s.taken }
  number.forM fun number => do
    let _ ← writeTo number (toBytes (mark ++ " ".intercalate texts ++ "\n"))

end SymbolAtlas.Shell
