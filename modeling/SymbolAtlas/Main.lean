import SymbolAtlas.CommandLine.Execute
import SymbolAtlas.Files.Access
import SymbolAtlas.Tools.Toolbox

namespace SymbolAtlas

/-- Adds a file as it is on disk. One that cannot be read is left out. -/
def addFromDisk (t : Files.Tree) (name : String) : IO Files.Tree := do
  match ← (IO.FS.readBinFile name).toBaseIO with
  | .ok contents => return (Files.Edit.save ⟨name⟩ contents.toList).treeAfter t
  | .error _ => return t

/-- The place that an absolute path names when no piece of it leaves a directory. -/
def placeOf (path : String) : Files.Place :=
  (Files.Path.mk path).pieces.filter (!Files.Path.isIdle ·)

/-- What the program finds around it, among the files of those names. -/
def lookAround (names : List String) : IO Surroundings := do
  let home : Files.Path := ⟨(← IO.getEnv "HOME").getD ""⟩
  let start := Files.Tree.emptyAt (placeOf (toString (← IO.currentDir)))
  let files ← ((Config.pathIn home).text :: names).foldlM addFromDisk start
  return { files, home, programs := Toolbox.programs files,
           flavor := ← IO.getEnv "LIBGRAPH_INTEROP_FLAVOR",
           terminal := ← (← IO.getStderr).isTty }

/-- The lines of a stream. -/
partial def readLines (stream : IO.FS.Stream) (lines : List String) : IO (List String) := do
  let line ← stream.getLine
  if line.isEmpty then return lines
  readLines stream (lines ++ (Text.lines line.toList).map String.ofList)

end SymbolAtlas

open SymbolAtlas in
/-- Runs the command that the arguments ask for. Only commands that work on libraries need files. -/
def main (arguments : List String) : IO UInt32 := do
  let names ← match CommandLine.parse none arguments with
    | .ok { task := .completions _, .. } => pure []
    | .ok _ => readLines (← IO.getStdin) []
    | .error _ => pure []
  let outcome := CommandLine.run (← lookAround names) arguments
  (← IO.getStdout).putStr outcome.written.stdout
  (← IO.getStderr).putStr outcome.written.stderr
  return outcome.exit.toUInt32
