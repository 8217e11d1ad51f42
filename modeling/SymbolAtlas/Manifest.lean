import SymbolAtlas.Name
import SymbolAtlas.Properties
import SymbolAtlas.Text.Decimal

/-!
# Library manifests

The properties stored beside a library's data: one `key=value` to a line, comments after `#` or `!`,
and a backslash at the end of a line that continues it on the next. A line without a separator is a
key with an empty value, so every text is a manifest.
-/

namespace SymbolAtlas

structure Manifest where
  properties : Properties
  deriving DecidableEq, Inhabited

namespace Manifest

def empty : Manifest :=
  ⟨.empty⟩

/-- A line that holds no property: blank or a comment. -/
def isIgnored (line : List Char) : Bool :=
  match line with
  | [] => true
  | c :: _ => c == '#' || c == '!'

/-- Joins continued lines. `pending` is what a line that goes on has given so far; while it is
empty, blank lines and comments are left out. -/
def joinLines (pending : List Char) : List (List Char) → List (List Char)
  | [] => if pending.isEmpty then [] else [pending]
  | raw :: rest =>
    let line := Text.trimStart raw
    if pending.isEmpty && isIgnored line then joinLines [] rest
    else if line.getLast? = some '\\' then joinLines (pending ++ line.dropLast) rest
    else (pending ++ line) :: joinLines [] rest

/-- Key and value of a joined line. They are separated by the first `=` or `:`. -/
def splitProperty (line : List Char) : String × String :=
  match Text.splitFirst (fun c => c == '=' || c == ':') line with
  | some (key, value) => (String.ofList (Text.trim key), String.ofList (Text.trim value))
  | none => (String.ofList (Text.trim line), "")

/-- The properties that a text states, in order. A property needs a key. -/
def statedProperties (text : String) : List (String × String) :=
  ((joinLines [] (Text.lines text.toList)).map splitProperty).filter fun p => !p.1.isEmpty

/-- Reads a manifest. Of several values for one key the last one stays. -/
def parse (text : String) : Manifest :=
  ⟨.ofList (statedProperties text)⟩

/-- Writes a manifest, sorted by key. -/
def render (m : Manifest) : String :=
  String.join (m.properties.entries.map fun (key, value) => key ++ "=" ++ value ++ "\n")

def get? (m : Manifest) (key : String) : Option String :=
  m.properties.get? key

def set (m : Manifest) (key value : String) : Manifest :=
  ⟨m.properties.set key value⟩

/-- The words of a list-valued property. -/
def list (m : Manifest) (key : String) : List String :=
  match m.get? key with
  | some value => (Text.words value.toList).map String.ofList
  | none => []

def uniqueName (m : Manifest) : Option String :=
  (m.get? "unique_name").filter (!·.isEmpty)

/-- The package that native declarations of the library live in, if it states one. -/
def package (m : Manifest) : Option QualName :=
  ((m.get? "package").map QualName.ofText).filter (!·.isRoot)

/-- Whether the library binds native declarations. -/
def isInterop (m : Manifest) : Bool :=
  match m.get? "interop" with
  | some value => (Text.trim value.toList).map Char.toLower == "true".toList
  | none => false

/-- Forward declarations that the library offers to others. -/
def exportedForwardDeclarations (m : Manifest) : List QualName :=
  (m.list "exportForwardDeclarations").map QualName.ofText

/-- Native headers, in the order stated. -/
def includedHeaders (m : Manifest) : List String :=
  m.list "includedHeaders"

def depends (m : Manifest) : List String :=
  m.list "depends"

def nativeTargets (m : Manifest) : List String :=
  m.list "native_targets"

/-- The stated ABI version. A value that is no number counts as none. -/
def abiVersion (m : Manifest) : Option UInt32 :=
  (m.get? "abi_version").bind fun value => Text.readU32 (Text.trim value.toList)

def withUniqueName (m : Manifest) (name : String) : Manifest :=
  m.set "unique_name" name

def withPackage (m : Manifest) (package : String) : Manifest :=
  m.set "package" package

def withInterop (m : Manifest) (interop : Bool) : Manifest :=
  m.set "interop" (if interop then "true" else "false")

def withExportedForwardDeclarations (m : Manifest) (names : List String) : Manifest :=
  m.set "exportForwardDeclarations" (" ".intercalate names)

def withIncludedHeaders (m : Manifest) (headers : List String) : Manifest :=
  m.set "includedHeaders" (" ".intercalate headers)

def withDepends (m : Manifest) (libraries : List String) : Manifest :=
  m.set "depends" (" ".intercalate libraries)

end Manifest

end SymbolAtlas
