import SymbolAtlas.Files.Tree
import SymbolAtlas.Shell.Bytewise
import SymbolAtlas.Shell.Script
import SymbolAtlas.Tools.Machine

namespace SymbolAtlas.Shell

open Files

structure Access where
  reads : Bool := false
  writes : Bool := false
  /-- Whether everything is written at the end. -/
  appends : Bool := false

inductive Channel
  /-- What is left to be read of a text. -/
  | text (left : Bytes)
  /-- A text that is collected. -/
  | collected (index : Nat)
  /-- A file, with how much of it lies before what is read or written next. -/
  | file (place : Place) (offset : Nat) (access : Access)
  | directory
  /-- Nothing can be read, and what is written is gone. -/
  | nothing
  /-- Nothing can be written. -/
  | full
  deriving Inhabited

/-- The fault of reading or writing a stream that is not open for that. -/
def badStream : Fault :=
  .other "Bad file descriptor"

/-- The fault of writing where there is no place left. -/
def noSpace : Fault :=
  .other "No space left on device"

def contentsAt (t : Tree) (place : Place) : Bytes :=
  match t.get? place with
  | some (.file contents) => contents
  | _ => []

namespace Channel

/-- What can still be read. -/
def left (t : Tree) : Channel → Except Fault Bytes
  | text left => .ok left
  | collected _ => .error badStream
  | file place offset access =>
    if access.reads then .ok ((contentsAt t place).drop offset) else .error badStream
  | directory => .error .isDirectory
  | nothing => .ok []
  | full => .ok []

/-- The channel after something has been read, with what is left. -/
def advance (t : Tree) (rest : Bytes) : Channel → Channel
  | text _ => text rest
  | file place _ access => file place ((contentsAt t place).length - rest.length) access
  | c => c

end Channel

/-- The bytes of a file after some are written at an offset. What lies between the old end and the
offset is zero. -/
def overwritten (old new : Bytes) (offset : Nat) : Bytes :=
  old.take offset ++ List.replicate (offset - old.length) 0 ++ new ++ old.drop (offset + new.length)

namespace Opening

def access : Opening → Access
  | read => { reads := true }
  | replace => { writes := true }
  | replaceAny => { writes := true }
  | append => { writes := true, appends := true }
  | both => { reads := true, writes := true }

def creates (o : Opening) : Bool :=
  o != read

def empties (o : Opening) : Bool :=
  o == replace || o == replaceAny

end Opening

/-- Opens the ordinary file or the directory at a path: the files after that, and the channel. -/
def openOrdinary (t : Tree) (opening : Opening) (path : Path) : Except Fault (Tree × Channel) := do
  if !opening.creates then
    match t.get? (← t.place path) with
    | some (.file _) => return (t, .file (← t.place path) 0 opening.access)
    | some .directory => return (t, .directory)
    | none => throw .missing
  else
    let old := match t.find path with
      | .ok (.file contents) => if opening.empties then [] else contents
      | _ => []
    let t ← t.write path old
    let (dir, last) ← t.lastStep path
    return (t, .file (dir ++ [last]) 0 opening.access)

inductive FileKind
  | regular
  | directory
  | character
  | pipe
  deriving DecidableEq

def Channel.kind : Channel → FileKind
  | text _ => .pipe
  | collected _ => .pipe
  | file .. => .regular
  | directory => .directory
  | nothing => .character
  | full => .character

end SymbolAtlas.Shell
