import SymbolAtlas.Build.Error
import SymbolAtlas.Build.Order
import SymbolAtlas.Build.Target
import SymbolAtlas.Library

/-!
# Resolving libraries

Library names are looked for as paths, then in each repository, then among the default libraries. The
libraries found, and all that they depend on, are collected under their own names and put in order,
dependencies first. Of several that have one name the first one found stays.
-/

namespace SymbolAtlas

structure ResolvedLibrary where
  name : String
  path : Files.Path
  manifest : Manifest
  /-- Whether it was found by listing the default libraries. -/
  isDefault : Bool
  deriving DecidableEq, Inhabited

namespace ResolvedLibrary

def package (l : ResolvedLibrary) : Option QualName :=
  l.manifest.package

def includedHeaders (l : ResolvedLibrary) : List String :=
  l.manifest.includedHeaders

end ResolvedLibrary

/-- Where libraries are looked for, and which ones can be used. -/
structure LibrarySearch where
  repositories : List Files.Path
  target : Target
  defaultsDir : Option Files.Path := none
  abiVersion : UInt32 := 1
  /-- Leaves the standard library out wherever it appears. -/
  skipStandard : Bool := true
  /-- Leaves the default libraries out. -/
  dropDefaults : Bool := false
  deriving DecidableEq, Inhabited

/-- A library that is still to be opened. -/
structure LibraryDemand where
  requested : String
  /-- Where it is, when that is known already. -/
  path : Option Files.Path := none
  /-- The number of the library that depends on it. -/
  dependent : Option Nat := none
  isDefault : Bool := false
  deriving DecidableEq, Inhabited

/-- The libraries collected so far, in the order in which they were found, the dependencies among
them, and the demands that are left. -/
structure LibraryCollection where
  libraries : List ResolvedLibrary := []
  graph : DependencyGraph := {}
  demands : List LibraryDemand := []
  deriving DecidableEq, Inhabited

namespace LibraryCollection

def number? (c : LibraryCollection) (name : String) : Option Nat :=
  c.libraries.findIdx? (·.name == name)

/-- Notes that the library `dependent` depends on the library `dependency`. -/
def link (c : LibraryCollection) (dependent : Option Nat) (dependency : Nat) : LibraryCollection :=
  match dependent with
  | some d => { c with graph := c.graph.addEdge d dependency }
  | none => c

/-- Takes a library in. Its dependencies are demanded next, unless its name is taken already. -/
def enter (c : LibraryCollection) (library : ResolvedLibrary) (dependent : Option Nat) :
    LibraryCollection :=
  match c.number? library.name with
  | some n => c.link dependent n
  | none =>
    let n := c.libraries.length
    let demands := library.manifest.depends.map fun name =>
      { requested := name, dependent := some n : LibraryDemand }
    { libraries := c.libraries ++ [library], graph := c.graph.addNode,
      demands := demands ++ c.demands : LibraryCollection }.link dependent n

end LibraryCollection

namespace LibrarySearch

open Files

/-- The name of the library that is never linked with native bindings. -/
def standardLibrary : String :=
  "stdlib"

/-- Where a name is looked for, in this order. -/
def candidates (s : LibrarySearch) (name : String) : List Path :=
  ⟨name⟩ :: (s.repositories ++ s.defaultsDir.toList).map (·.join name)

/-- The first candidate that is a library. -/
def locate (s : LibrarySearch) (t : Tree) (name : String) : Except BuildError Path :=
  match (s.candidates name).find? (DirectoryLibrary.isLibrary t) with
  | some path => .ok path
  | none => .error (.unresolvedLibrary name ((s.candidates name).map (·.text)))

/-- Why a library with this manifest cannot be used. -/
def objection? (s : LibrarySearch) (manifest : Manifest) : Option String :=
  match manifest.abiVersion.filter (· ≠ s.abiVersion) with
  | some abi => some s!"ABI version {abi.toNat} (expected {s.abiVersion.toNat})"
  | none =>
    let targets := manifest.nativeTargets
    if targets.isEmpty || targets.contains s.target.visibleName then none
    else some ("built for " ++ ", ".intercalate targets ++ " but the target is " ++
      s.target.visibleName)

/-- Opens the library at `path`, which was asked for as `requested`. -/
def openAt (s : LibrarySearch) (t : Tree) (requested : String) (path : Path) (isDefault : Bool) :
    Except BuildError ResolvedLibrary := do
  let manifestPath := DirectoryLibrary.manifestPath path
  let manifest ← match t.readText manifestPath with
    | .ok text => pure (Manifest.parse text)
    | .error _ =>
      throw (.incompatibleLibrary requested ("failed to read manifest `" ++ manifestPath.text ++ "`"))
  if let some reason := s.objection? manifest then
    throw (.incompatibleLibrary requested reason)
  return ⟨(manifest.uniqueName.or path.fileName?).getD requested, path, manifest, isDefault⟩

/-- Whether the library of that name is left out. -/
def skips (s : LibrarySearch) (name : String) : Bool :=
  s.skipStandard && name == standardLibrary

/-- The library that a demand is for, unless it is left out. -/
def answer (s : LibrarySearch) (t : Tree) (d : LibraryDemand) :
    Except BuildError (Option ResolvedLibrary) := do
  if s.skips d.requested then return none
  let path ← match d.path with
    | some path => pure path
    | none => s.locate t d.requested
  let library ← s.openAt t d.requested path d.isDefault
  return if s.skips library.name then none else some library

def meet (s : LibrarySearch) (t : Tree) (c : LibraryCollection) (d : LibraryDemand) :
    Except BuildError LibraryCollection := do
  match ← s.answer t d with
  | some library => return c.enter library d.dependent
  | none => return c

/-- Meets the demands, the first one first, until none is left or `steps` are made. -/
def meetAll (s : LibrarySearch) (t : Tree) : Nat → LibraryCollection →
    Except BuildError LibraryCollection
  | 0, c => .ok c
  | steps + 1, c =>
    match c.demands with
    | [] => .ok c
    | d :: rest => do s.meetAll t steps (← s.meet t { c with demands := rest } d)

/-- The demands that a build begins with: the names asked for, then the default libraries. -/
def firstDemands (s : LibrarySearch) (t : Tree) (names : List String) : List LibraryDemand :=
  let defaults := if s.dropDefaults then [] else s.defaultsDir.toList.flatMap fun dir =>
    DirectoryLibrary.find t dir 1
  (names.map fun name => { requested := name : LibraryDemand }) ++ defaults.map fun path =>
    { requested := path.fileName?.getD "", path := some path, isDefault := true }

/-- The names that the files of a tree, read as manifests, depend on. -/
def namesIn (t : Tree) : List String :=
  t.entries.entries.flatMap fun (_, entry) =>
    match entry with
    | .file contents => ((Text.textOfBytes? contents).map fun s => (Manifest.parse s).depends).getD []
    | .directory => []

/-- A number of steps that is enough for `demands` first demands: each library is asked for first
by one of them or by a name in a manifest, and is followed by the names in one manifest. -/
def stepBound (t : Tree) (demands : Nat) : Nat :=
  let names := (namesIn t).length
  demands + (demands + names) * names

/-- The libraries that `names` ask for and all that they depend on, in the order of finding. -/
def collect (s : LibrarySearch) (t : Tree) (names : List String) :
    Except BuildError LibraryCollection :=
  let demands := s.firstDemands t names
  s.meetAll t (stepBound t demands.length) { demands }

/-- The collected libraries with dependencies first. -/
def arrange (c : LibraryCollection) : Except BuildError (List ResolvedLibrary) :=
  match c.graph.order with
  | .ok order => .ok (order.filterMap (c.libraries[·]?))
  | .error n => .error (.dependencyCycle ((c.libraries[n]?).elim "" (·.name)))

/-- The libraries that `names` ask for and all that they depend on, dependencies first. -/
def resolve (s : LibrarySearch) (t : Tree) (names : List String) :
    Except BuildError (List ResolvedLibrary) := do
  arrange (← s.collect t names)

end LibrarySearch

end SymbolAtlas
