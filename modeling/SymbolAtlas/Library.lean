import SymbolAtlas.Files.Access
import SymbolAtlas.Header
import SymbolAtlas.Manifest
import SymbolAtlas.Payload

/-!
# Libraries

A library offers a manifest, the bytes of a module header and the bytes of one payload for each part
of a package. Parts of a package are numbered from zero in the order in which the header lists them.

A library is stored as a directory:

    <library>/manifest
    <library>/linkdata/module
    <library>/linkdata/package_<name>/<part>

or kept in memory.
-/

namespace SymbolAtlas

/-- What a module is loaded from. -/
structure Library where
  name : String
  manifest : Manifest
  header : Except Files.Fault Bytes
  payload : QualName → Nat → Except Files.Fault Bytes

/-- Numbers every name by its occurrences before it, those in `seen` included. -/
def numberParts (seen : List QualName) : List QualName → List (QualName × Nat)
  | [] => []
  | name :: rest => (name, seen.count name) :: numberParts (name :: seen) rest

/-! ## Libraries in directories -/

/-- A library directory whose manifest has been read. -/
structure DirectoryLibrary where
  root : Files.Path
  name : String
  manifest : Manifest

namespace DirectoryLibrary

open Files

def manifestPath (root : Path) : Path :=
  root.join "manifest"

def linkdataPath (root : Path) : Path :=
  root.join "linkdata"

def headerPath (root : Path) : Path :=
  (linkdataPath root).join "module"

/-- The name of the directory that holds the parts of a package. -/
def packageDirName (package : QualName) : String :=
  "package_" ++ package.text

def packagePath (root : Path) (package : QualName) : Path :=
  (linkdataPath root).join (packageDirName package)

def partPath (root : Path) (package : QualName) (part : Nat) : Path :=
  (packagePath root package).join (toString part)

/-- A library directory is one with a manifest file. -/
def isLibrary (t : Tree) (dir : Path) : Bool :=
  t.isFile (manifestPath dir)

def readManifest (t : Tree) (path : Path) : Except Failure Manifest :=
  (withContext ("failed to read manifest `" ++ path.text ++ "`") (t.readText path)).map Manifest.parse

def writeManifest (path : Path) (m : Manifest) : Edit Failure Unit :=
  Edit.write ("failed to write manifest `" ++ path.text ++ "`") path (Text.bytesOfText m.render)

/-- Opens a library directory, which reads its manifest. The library is named by its manifest, else
by its directory. -/
def openDir (t : Tree) (root : Path) : Except Failure DirectoryLibrary := do
  let manifest ← readManifest t (manifestPath root)
  return ⟨root, (manifest.uniqueName.or root.fileName?).getD root.text, manifest⟩

def readPart (t : Tree) (root : Path) (package : QualName) (part : Nat) : Except Fault Bytes :=
  if package.isValidPackage then t.read (partPath root package part)
  else .error (.badPackageName package.text)

/-- The library that a directory holds. Its files are read when they are asked for. -/
def toLibrary (t : Tree) (l : DirectoryLibrary) : Library where
  name := l.name
  manifest := l.manifest
  header := t.read (headerPath l.root)
  payload := readPart t l.root

/-- Writes one payload in its place. -/
def writePart (root : Path) (part : (QualName × Nat) × Payload) : Edit Failure Unit := do
  let ((package, index), payload) := part
  let some bytes := payload.encode?
    | throw (.plain ["failed to encode package `" ++ package.text ++ "`",
        "the size limit has been reached"])
  Edit.makeDir (packagePath root package)
  Edit.write ("failed to write package `" ++ package.text ++ "`") (partPath root package index) bytes

/-- Writes a library directory: the manifest, the header, and the payloads numbered for each
package in the order given. -/
def create (root : Path) (manifest : Manifest) (header : Header) (payloads : List Payload) :
    Edit Failure Unit := do
  Edit.makeDir (linkdataPath root)
  ExceptT.adapt (Failure.within "failed to write library manifest")
    (writeManifest (manifestPath root) manifest)
  let some bytes := header.encode?
    | throw (.plain ["failed to encode module header", "the size limit has been reached"])
  Edit.write ("failed to write module header in " ++ root.text) (headerPath root) bytes
  let numbered := numberParts [] (payloads.map fun p => QualName.ofText p.package)
  (numbered.zip payloads).forM (writePart root)

/-! ## Finding library directories -/

/-- The library directories at most `depth` levels below the directory at `place`, as paths that
continue `dir`. A library is not searched for others. -/
def findBelow (t : Tree) : Nat → Place → Path → List Path
  | 0, _, _ => []
  | depth + 1, place, dir =>
    (t.children place).flatMap fun name =>
      let inner := dir.join name
      match t.get? (place ++ [name]) with
      | some .directory =>
        if isLibrary t inner then [inner] else findBelow t depth (place ++ [name]) inner
      | _ => []

/-- The library directories at most `depth` levels below `root`, each directory's in the order of
their names. The search goes at least one level deep. -/
def find (t : Tree) (root : Path) (depth : Nat) : List Path :=
  match t.place root with
  | .error _ => []
  | .ok place =>
    match t.get? place with
    | some .directory => findBelow t (max depth 1) place root
    | _ => []

end DirectoryLibrary

/-! ## Libraries in memory -/

/-- A library whose files are given as bytes. -/
structure MemoryLibrary where
  name : String
  manifest : Manifest
  header : Bytes
  parts : List ((QualName × Nat) × Bytes)

namespace MemoryLibrary

def toLibrary (l : MemoryLibrary) : Library where
  name := l.name
  manifest := l.manifest
  header := .ok l.header
  payload := fun package part =>
    match l.parts.lookup (package, part) with
    | some bytes => .ok bytes
    | none => .error (.noPayload package.text part)

/-- The library with these payloads. The header lists their packages and then those in `declared`,
which have no payload. -/
def ofPayloads? (name moduleName : String) (manifest : Manifest) (payloads : List Payload)
    (declared : List String) : Option MemoryLibrary := do
  let header ← (Header.mk moduleName (payloads.map (·.package) ++ declared)).encode?
  let encoded ← payloads.mapM (·.encode?)
  let numbered := numberParts [] (payloads.map fun p => QualName.ofText p.package)
  return ⟨name, manifest, header, numbered.zip encoded⟩

end MemoryLibrary

end SymbolAtlas
