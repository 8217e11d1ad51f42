import SymbolAtlas.Failure
import SymbolAtlas.Files.Tree

namespace SymbolAtlas.Files

def Tree.loadText (t : Tree) (path : Path) : Except Failure String :=
  withContext ("failed to read file: " ++ path.text) (t.readText path)

namespace Edit

/-- Makes a change for a purpose that is told when it fails. -/
def inContext {α : Type} (context : String) (e : Edit Fault α) : Edit Failure α :=
  ExceptT.adapt (Failure.ofFile context) e

/-- Makes a directory unless it exists. -/
def makeDir (path : Path) : Edit Failure Unit :=
  inContext ("failed to create directory: " ++ path.text) (ensureDir path)

/-- Writes a file in a directory that exists. -/
def write (context : String) (path : Path) (contents : Bytes) : Edit Failure Unit :=
  inContext context (whole fun t => t.write path contents)

/-- Writes a file, with its directory when that is missing. -/
def save (path : Path) (contents : Bytes) : Edit Failure Unit := do
  path.parent?.forM makeDir
  write ("failed to write file: " ++ path.text) path contents

def saveText (path : Path) (text : String) : Edit Failure Unit :=
  save path (Text.bytesOfText text)

end Edit

end SymbolAtlas.Files
