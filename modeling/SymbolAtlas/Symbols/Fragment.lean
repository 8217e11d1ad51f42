import SymbolAtlas.Library
import SymbolAtlas.Symbols.Class

/-!
# Package fragments

A fragment is one package's share of a module. Stored fragments stand for parts of packages in the
module's library. A module that binds native declarations has more: an alias fragment for each
reserved namespace, which shows the classes of the module's own package there, and a fragment with
the forward declarations that the module exports.

A provider holds a module's fragments in layers and answers by package; every answer keeps the order
of the fragments.
-/

namespace SymbolAtlas

/-- A part of a package in a library. What has been read of it is kept in the store under its
identity. -/
structure StoredFragment where
  identity : Identity
  package : QualName
  part : Nat
  library : Library
  /-- The module that the fragment was made for. -/
  owner : Option Identity
  /-- Whether the first reading of the part is reported. -/
  reports : Bool
  counters : Identity

/-- Shows the classes of stored fragments in a reserved namespace. -/
structure AliasFragment where
  space : ForwardNamespace
  targets : List StoredFragment
  owner : Option Identity

/-- Forward declarations that a module exports from its package. -/
structure ExportedFragment where
  identity : Identity
  package : QualName
  declarations : List QualName

/-- The names that are declared, without repetition. -/
def ExportedFragment.classNames (f : ExportedFragment) : List Name :=
  (f.declarations.map QualName.shortName).eraseDups

def ExportedFragment.declares (f : ExportedFragment) (declaration : QualName) : Bool :=
  f.declarations.contains declaration

inductive Fragment
  | stored (fragment : StoredFragment)
  | aliasing (fragment : AliasFragment)
  | exported (fragment : ExportedFragment)

namespace Fragment

def package : Fragment → QualName
  | stored f => f.package
  | aliasing f => f.space.package
  | exported f => f.package

/-- The kind of the fragment in reports. -/
def label : Fragment → String
  | stored _ => "deserialized"
  | aliasing _ => "alias"
  | exported _ => "exported-forward-declarations"

def stored? : Fragment → Option StoredFragment
  | stored f => some f
  | _ => none

def isSynthetic (f : Fragment) : Bool :=
  f.stored?.isNone

end Fragment

/-- The direct sub-package of `parent` on the way to `a`, when `a` lies strictly below it. -/
def QualName.directChild? (parent a : QualName) : Option QualName :=
  if a == parent || !a.startsWith parent then none
  else a.segments[parent.segments.length]?.map parent.child

/-- Fragments in layers. -/
structure Provider where
  identity : Identity
  layers : List (List Fragment)

namespace Provider

def fragments (p : Provider) : List Fragment :=
  p.layers.flatten

def packageFragments (p : Provider) (package : QualName) : List Fragment :=
  p.fragments.filter (·.package == package)

def storedFragments (p : Provider) : List StoredFragment :=
  p.fragments.filterMap Fragment.stored?

def syntheticFragments (p : Provider) : List Fragment :=
  p.fragments.filter Fragment.isSynthetic

/-- The packages that have fragments, without repetition. -/
def packageNames (p : Provider) : List QualName :=
  (p.fragments.map Fragment.package).eraseDups

/-- The direct sub-packages of a package at or below which fragments of a layer lie, without
repetition. -/
def subPackagesIn (package : QualName) (layer : List Fragment) : List QualName :=
  (layer.filterMap fun f => package.directChild? f.package).eraseDups

/-- Those of all layers, without repetition. -/
def subPackages (p : Provider) (package : QualName) : List QualName :=
  (p.layers.flatMap (subPackagesIn package)).eraseDups

end Provider

end SymbolAtlas
