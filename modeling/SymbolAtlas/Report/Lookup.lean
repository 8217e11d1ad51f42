import SymbolAtlas.Report.Inspection
import SymbolAtlas.Symbols.Graph

namespace SymbolAtlas

structure LookupReport where
  classId : ClassId
  label : String
  module : Option String
  /-- The class that answered. It is another one than was asked for when it is seen through an
  alias. -/
  resolved : Option ClassId
  kind : Option ClassKind
  supertypes : List ClassId
  deriving DecidableEq

namespace LookupReport

def ofResolution (id : ClassId) (r : Resolution) : LookupReport where
  classId := id
  label := r.label
  module := r.module?.map (·.name.text)
  resolved := r.descriptor?.map (·.classId)
  kind := r.descriptor?.map (·.kind)
  supertypes := r.descriptor?.elim [] (·.supertypes)

def isFound (r : LookupReport) : Bool :=
  r.label != Resolution.notFound.label

/-- Loads library directories into a graph, each after the ones before it are loaded. -/
def loadAll (t : Files.Tree) (options : LoadOptions) (g : ModuleGraph) (s : Store) :
    List Files.Path → Except Failure (ModuleGraph × Store)
  | [] => .ok (g, s)
  | path :: rest => do
    let (_, load) ← loadDirectory t path
    match (load options).runOn s with
    | (.error e, _) => throw (.load e)
    | (.ok m, s) => loadAll t options (g.add m) s rest

def lookUp (t : Files.Tree) (settings : LanguageSettings) (id : ClassId)
    (paths : List Files.Path) : Except Failure LookupReport := do
  let (g, s) ← loadAll t { settings } {} {} paths
  let resolution ← ((g.resolve id).runOn s).1.mapError Failure.load
  return ofResolution id resolution

/-! ## Forms of a report -/

def field? (key : String) : Option String → List (String × Json)
  | some s => [(key, .text s)]
  | none => []

def toJson (r : LookupReport) : Json :=
  .object <| [("class_id", .text r.classId.toText), ("resolution", .text r.label)] ++
    field? "module" r.module ++ field? "resolved_id" (r.resolved.map (·.toText)) ++
    field? "kind" (r.kind.map (·.toText)) ++
    if r.supertypes.isEmpty then []
    else [("supertypes", .ofTexts (r.supertypes.map (·.toText)))]

def toText (r : LookupReport) : String :=
  let answer := r.classId.toText ++ ": " ++ r.label
  match r.module, r.resolved with
  | none, _ => answer
  | some module, none => answer ++ " in " ++ module
  | some module, some resolved =>
    let answer := answer ++ " in " ++ module
    if resolved.toText = r.classId.toText then answer else answer ++ " as " ++ resolved.toText

end LookupReport

end SymbolAtlas
