import SymbolAtlas.Symbols.Module

/-!
# Module graphs

Several modules resolve a class together. A class that some module declares answers before one that is
seen through an alias, and that before a forward declaration. Of modules that can answer alike, the
one loaded first does; of modules that export the same forward declaration, the one loaded last.
-/

namespace SymbolAtlas

/-- How a class is known to a graph, and by which module. -/
inductive Resolution
  | declared (module : Module) (descriptor : ClassDescriptor)
  | aliased (module : Module) (descriptor : ClassDescriptor)
  | forwardDeclared (module : Module) (descriptor : ClassDescriptor)
  | notFound

namespace Resolution

def descriptor? : Resolution → Option ClassDescriptor
  | declared _ c => some c
  | aliased _ c => some c
  | forwardDeclared _ c => some c
  | notFound => none

def module? : Resolution → Option Module
  | declared m _ => some m
  | aliased m _ => some m
  | forwardDeclared m _ => some m
  | notFound => none

def label : Resolution → String
  | declared _ _ => "declared"
  | aliased _ _ => "aliased"
  | forwardDeclared _ _ => "forward-declared"
  | notFound => "not-found"

end Resolution

/-- Modules in the order in which they were loaded. -/
structure ModuleGraph where
  modules : List Module := []

namespace ModuleGraph

def add (g : ModuleGraph) (m : Module) : ModuleGraph :=
  ⟨g.modules ++ [m]⟩

def load (g : ModuleGraph) (library : Library) (options : LoadOptions) :
    Query (Module × ModuleGraph) := do
  let m ← Module.load library options
  return (m, g.add m)

/-- The class that a stored fragment of the module declares. -/
def declaredIn (id : ClassId) (m : Module) : Query (Option Resolution) := do
  let answer ← Query.firstAnswer
    (fun fragment => match fragment with
      | .stored f => f.contributed id.relative
      | _ => return none)
    (← m.packageFragments id.package)
  return answer.map (.declared m)

/-- The class that an alias fragment of the module shows. -/
def aliasedIn (id : ClassId) (m : Module) : Query (Option Resolution) := do
  let answer ← Query.firstAnswer
    (fun fragment => match fragment with
      | .aliasing f => f.contributed id.relative
      | _ => return none)
    (← m.packageFragments id.package)
  return answer.map (.aliased m)

/-- The placeholder of an exported fragment: for the dotted name of the class, or for its name alone
when the fragment belongs to the class's package. -/
def exportedBy (id : ClassId) (f : ExportedFragment) : Query (Option ClassDescriptor) := do
  match ← f.placeholderFor id.qualName with
  | some c => return some c
  | none => if f.package == id.package then f.contributed id.relative else return none

/-- The placeholder of a forward declaration that the module exports. -/
def forwardDeclaredIn (id : ClassId) (m : Module) : Query (Option Resolution) := do
  let answer ← Query.firstAnswer
    (fun fragment => match fragment with
      | .exported f => exportedBy id f
      | _ => return none)
    (← m.provider).syntheticFragments
  return answer.map (.forwardDeclared m)

/-- Resolves a class across the modules of the graph. -/
def resolve (g : ModuleGraph) (id : ClassId) : Query Resolution := do
  match ← Query.firstAnswer (declaredIn id) g.modules with
  | some answer => return answer
  | none =>
    match ← Query.firstAnswer (aliasedIn id) g.modules with
    | some answer => return answer
    | none =>
      match ← Query.firstAnswer (forwardDeclaredIn id) g.modules.reverse with
      | some answer => return answer
      | none => return .notFound

end ModuleGraph

end SymbolAtlas
