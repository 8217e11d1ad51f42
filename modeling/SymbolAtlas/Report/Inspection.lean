import SymbolAtlas.Json
import SymbolAtlas.Symbols.Module

namespace SymbolAtlas

structure FragmentSummary where
  package : String
  label : String
  part : Option Nat
  classNames : List String
  deriving DecidableEq, Inhabited

structure ModuleReport where
  module : String
  library : String
  path : Files.Path
  isInterop : Bool
  package : Option String
  fragments : List FragmentSummary
  counters : Counters
  deriving DecidableEq, Inhabited

/-- The module that the library directory at `path` is loaded into, with its library. -/
def loadDirectory (t : Files.Tree) (path : Files.Path) :
    Except Failure (Library × (LoadOptions → Query Module)) := do
  let context := "failed to open library at " ++ path.text
  let directory ← (DirectoryLibrary.openDir t path).mapError (Failure.within context)
  let library := directory.toLibrary t
  return (library, Module.load library)

namespace ModuleReport

def summarize (listNames : Bool) (f : Fragment) : Query FragmentSummary := do
  let names ← if listNames then f.classNames else pure []
  return { package := f.package.text, label := f.label, part := f.stored?.map (·.part),
           classNames := (names.map (·.text)).mergeSort fun a b => decide (a ≤ b) }

/-- Loads a library and reports on it, counting in counters of its own. -/
def make (path : Files.Path) (library : Library) (load : LoadOptions → Query Module)
    (options : LoadOptions) (listNames : Bool) : Query ModuleReport := do
  let m ← load options
  let fragments ← (← m.fragments).mapM (summarize listNames)
  let counters := (← get).countersOf (← m.services).counters
  return { module := m.name.text, library := library.name, path,
           isInterop := library.manifest.isInterop,
           package := library.manifest.package.map (·.text), fragments, counters }

/-- Inspects the library directory at `path`. -/
def inspect (t : Files.Tree) (settings : LanguageSettings) (listNames : Bool) (path : Files.Path) :
    Except Failure ModuleReport := do
  let (library, load) ← loadDirectory t path
  ((make path library load { settings } listNames).runOn {}).1.mapError Failure.load

def isSynthetic (f : FragmentSummary) : Bool :=
  f.part.isNone

def syntheticCount (r : ModuleReport) : Nat :=
  r.fragments.countP isSynthetic

/-! ## Forms of a report -/

def fragmentJson (f : FragmentSummary) : Json :=
  .object <| [("package", .text f.package), ("kind", .text f.label)] ++
    (f.part.map fun part => ("part", Json.ofNat part)).toList ++
    if f.classNames.isEmpty then [] else [("classifiers", .ofTexts f.classNames)]

def countersJson (c : Counters) : Json :=
  .object [("packages_decoded", .ofNat c.packagesDecoded),
    ("classes_deserialized", .ofNat c.classesRead),
    ("not_found_classes", .ofNat c.missingClasses)]

def toJson (r : ModuleReport) : Json :=
  .object [("module", .text r.module), ("library", .text r.library), ("path", .text r.path.text),
    ("interop", .bool r.isInterop), ("package", .ofText? r.package),
    ("fragments", .array (r.fragments.map fragmentJson)), ("stats", countersJson r.counters)]

/-- The lines about one fragment. The number of its part is shown when it is not the first. -/
def fragmentText (f : FragmentSummary) : String :=
  let package := if f.package.isEmpty then "<root>" else f.package
  let part := match f.part with
    | some (n + 1) => s!" #{n + 1}"
    | _ => ""
  "    " ++ package ++ " [" ++ f.label ++ part ++ "]\n" ++
    String.join (f.classNames.map fun name => "      " ++ name ++ "\n")

def toText (r : ModuleReport) : String :=
  let synthetic := r.syntheticCount
  let package :=
    if r.isInterop then "  interop package: " ++ r.package.getD "?" ++ "\n" else ""
  "module " ++ r.module ++ " (" ++ r.path.text ++ ")\n" ++ package ++
    s!"  fragments: {r.fragments.length - synthetic} deserialized, {synthetic} synthetic\n" ++
    String.join (r.fragments.map fragmentText)

end ModuleReport

end SymbolAtlas
