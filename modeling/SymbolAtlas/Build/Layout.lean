import SymbolAtlas.Files.Path

namespace SymbolAtlas

structure BuildLayout where
  root : Files.Path
  deriving DecidableEq, Inhabited

namespace BuildLayout

def ofOutput (outputName : String) : BuildLayout :=
  ⟨⟨outputName ++ "-build"⟩⟩

/-- Where the imported declarations are written. -/
def generatedDir (l : BuildLayout) : Files.Path :=
  l.root.join "kotlin"

/-- Where the native stubs are written. -/
def nativesDir (l : BuildLayout) : Files.Path :=
  l.root.join "natives"

def manifest (l : BuildLayout) : Files.Path :=
  l.root.join "manifest.properties"

/-- The name of the native stubs, without an ending. -/
def stubsName : String :=
  "cstubs"

/-- The arguments that link the stubs: a script, or compiled native code. -/
def stubArguments (l : BuildLayout) (scripts : Bool) : List String :=
  if scripts then ["-includeBinary", (l.nativesDir.join "js_stubs.js").text]
  else ["-nativelibrary", (l.nativesDir.join (stubsName ++ ".bc")).text]

end BuildLayout

end SymbolAtlas
