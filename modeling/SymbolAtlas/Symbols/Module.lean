import SymbolAtlas.Symbols.Lookup

/-!
# Modules

A module is what a library is loaded into. Loading reads the header and nothing else; the packages are
read by the queries that look into them. A module answers queries once it has its services.
-/

namespace SymbolAtlas

structure Module where
  identity : Identity
  name : Name
  library : Library

/-- What a caller can choose about loading. -/
structure LoadOptions where
  settings : LanguageSettings := {}
  /-- Whether the first reading of each part is reported. -/
  reports : Bool := false
  /-- Counters to count in. Without them the module gets counters of its own. -/
  counters : Option Identity := none
  decoder : Decoder := .binary
  deriving Inhabited

namespace Module

/-- A module without services. -/
def bare (name : Name) (library : Library) : Query Module := do
  return ⟨← Query.fresh, name, library⟩

def services? (m : Module) (s : Store) : Option Services :=
  s.modules.get? m.identity

def isInitialized (m : Module) (s : Store) : Bool :=
  (m.services? s).isSome

def services (m : Module) : Query Services := do
  match m.services? (← get) with
  | some s => return s
  | none => throw (.moduleNotInitialized m.name.text)

/-- Gives the module its services, once. -/
def attach (m : Module) (services : Services) : Query Unit := do
  if m.isInitialized (← get) then throw (.moduleAlreadyInitialized m.name.text)
  modify fun store => { store with modules := store.modules.set m.identity services }

/-! ## Loading -/

/-- The stored fragments that the header lists, in its order. -/
def storedFragments (m : Module) (header : Header) (reports : Bool) (counters : Identity) :
    Query (List StoredFragment) :=
  (numberParts [] (header.packages.map QualName.ofText)).mapM fun (package, part) => do
    return { identity := ← Query.fresh, package, part, library := m.library,
             owner := some m.identity, reports, counters }

/-- The fragments that a module has beside the stored ones: none, unless its library binds native
declarations. Such a library has to state its package. -/
def syntheticFragments (m : Module) (stored : List StoredFragment) : Query (List Fragment) := do
  let manifest := m.library.manifest
  if !manifest.isInterop then return []
  match manifest.package with
  | none => throw (.inconsistentManifest m.library.name)
  | some package =>
    let targets := stored.filter (·.package == package)
    let aliases := ForwardNamespace.all.map fun space =>
      Fragment.aliasing ⟨space, targets, some m.identity⟩
    let exported : ExportedFragment :=
      ⟨← Query.fresh, package, manifest.exportedForwardDeclarations⟩
    return aliases ++ [.exported exported]

/-- Loads a library into a module that is ready for queries. -/
def load (library : Library) (options : LoadOptions) : Query Module := do
  let bytes ← Query.ofExcept <| library.header.mapError (.libraryRead library.name "module header")
  let header ← Query.ofExcept <| Header.parse library.name bytes
  let counters ← match options.counters with
    | some id => pure id
    | none => Query.fresh
  let m ← bare (Name.special header.moduleName) library
  let stored ← m.storedFragments header options.reports counters
  let synthetic ← m.syntheticFragments stored
  let provider : Provider := ⟨← Query.fresh, [stored.map .stored, synthetic]⟩
  let services : Services :=
    { identity := ← Query.fresh, moduleName := m.name, policy := options.settings.policy,
      decoder := options.decoder, counters, provider }
  stored.forM (·.attach services)
  m.attach services
  return m

/-! ## Queries -/

def provider (m : Module) : Query Provider := do
  return (← m.services).provider

def fragments (m : Module) : Query (List Fragment) := do
  return (← m.provider).fragments

def packageFragments (m : Module) (package : QualName) : Query (List Fragment) := do
  return (← m.provider).packageFragments package

def packageNames (m : Module) : Query (List QualName) := do
  return (← m.provider).packageNames

def subPackages (m : Module) (package : QualName) : Query (List QualName) := do
  return (← m.provider).subPackages package

/-- The class of that id, if a fragment of its package offers one. -/
def findClass (m : Module) (id : ClassId) : Query (Option ClassDescriptor) := do
  (← m.services).findClass id

/-- The class of that id, or the placeholder for it. -/
def resolveClass (m : Module) (id : ClassId) : Query ClassDescriptor := do
  (← m.services).resolveClass id

end Module

end SymbolAtlas
