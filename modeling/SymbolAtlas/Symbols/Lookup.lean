import SymbolAtlas.Symbols.Store

/-!
# Looking into fragments

A part of a package is read when something first looks into it. A class is made from its record once;
after that the same descriptor answers. An answer that there is no such class is kept as well, an
error is not.
-/

namespace SymbolAtlas

namespace StoredFragment

/-- The services the fragment reads with. -/
def services (f : StoredFragment) : Query Services := do
  match (← get).services.get? f.identity with
  | some s => return s
  | none => throw (.componentsMissing f.package.text)

/-- Gives the fragment its services, once. -/
def attach (f : StoredFragment) (s : Services) : Query Unit := do
  if ((← get).services.get? f.identity).isSome then
    throw (.componentsAlreadySet f.package.text)
  modify fun store => { store with services := store.services.set f.identity s }

/-- Hands the bytes of the part to the decoder, and keeps a record of it. -/
def decode (f : StoredFragment) (s : Services) (bytes : Bytes) : Query Payload := do
  modify fun store => { store with decoderCalls := store.decoderCalls ++ [f.identity] }
  Query.ofExcept <| (s.decoder f.package bytes).mapError
    (.corruptPackage f.library.name f.package.text)

/-- Reads the part from the library. A payload that cannot be decoded counts as decoded; only one that
is kept is reported. -/
def load (f : StoredFragment) : Query Payload := do
  let s ← f.services
  let library := f.library.name
  let bytes ← Query.ofExcept <| (f.library.payload f.package f.part).mapError
    (.libraryRead library ("metadata of package `" ++ f.package.text ++ "`"))
  modify (·.countPackage f.counters)
  let payload ← f.decode s bytes
  if !s.policy.skipVersionCheck && !payload.version.isCompatibleWith .current then
    throw (.incompatibleMetadata library f.package.text payload.version.toText
      MetadataVersion.current.toText)
  if f.reports then
    modify fun store => { store with accessed := store.accessed ++ [f.package] }
  return payload

/-- The symbols of the part, read on first use. -/
def scope (f : StoredFragment) : Query Payload := do
  match (← get).payloads.get? f.identity with
  | some payload => return payload
  | none =>
    let payload ← f.load
    modify fun store => { store with payloads := store.payloads.set f.identity payload }
    return payload

def classRecord? (f : StoredFragment) (name : Name) : Query (Option ClassRecord) := do
  return (← f.scope).class? name

def declares (f : StoredFragment) (name : Name) : Query Bool := do
  return (← f.classRecord? name).isSome

def classNames (f : StoredFragment) : Query (List Name) := do
  return (← f.scope).classNames

def functionNames (f : StoredFragment) : Query (List Name) := do
  return (← f.scope).functionNames

def propertyNames (f : StoredFragment) : Query (List Name) := do
  return (← f.scope).propertyNames

end StoredFragment

namespace Services

/-- The services' fragments, as long as their provider is in use. -/
def liveFragments (s : Services) (package : QualName) : Query (List Fragment) := do
  if (← get).hasEnded s.provider.identity then return []
  return s.provider.packageFragments package

/-- The first stored fragment of the class's package that declares it, with its record. -/
def findRecord (s : Services) (id : ClassId) : Query (Option (StoredFragment × ClassRecord)) := do
  Query.firstAnswer
    (fun fragment => do
      match fragment with
      | .stored f => return (← f.classRecord? id.relative).map fun record => (f, record)
      | _ => return none)
    (← s.liveFragments id.package)

/-- The placeholder for a class that the module misses, one for each class and number of type
parameters. -/
def missingClass (s : Services) (id : ClassId) (typeParameters : UInt32) : Query MissingClass := do
  let key := (s.identity, id, typeParameters)
  match (← get).missing.get? key with
  | some m => return m
  | none =>
    let m : MissingClass := ⟨← Query.fresh, id, typeParameters⟩
    modify fun store =>
      { store.countMissing s.counters with missing := store.missing.set key m }
    return m

def loadAnnotation (s : Services) (record : AnnotationRecord) : Query Annotation := do
  let id := ClassId.parse record.className
  let annotationClass ← match ← s.findRecord id with
    | some _ => pure (.declared id)
    | none => .missing <$> s.missingClass id 0
  return ⟨annotationClass, record.arguments.map fun (name, value) =>
    (⟨name⟩, value.map ClassId.parse)⟩

def makeClass (s : Services) (id : ClassId) (record : ClassRecord) : Query ClassDescriptor := do
  let annotations ← record.annotations.mapM s.loadAnnotation
  modify (·.countClass s.counters)
  return .ofRecord (← Query.fresh) id record annotations

/-- The class of that id that a stored fragment of the module declares. -/
def readClass (s : Services) (id : ClassId) : Query (Option ClassDescriptor) := do
  let key := (s.identity, id)
  let remember (answer : Option (Option ClassDescriptor)) : Query Unit :=
    modify fun store => { store with classes := store.classes.set key answer }
  match (← get).classes.get? key with
  | some (some answer) => return answer
  | _ =>
    remember none
    let answer ← match ← s.findRecord id with
      | some (_, record) => some <$> s.makeClass id record
      | none => pure none
    remember (some answer)
    return answer

end Services

/-- The class that the fragment declares under `name`. -/
def StoredFragment.contributed (f : StoredFragment) (name : Name) :
    Query (Option ClassDescriptor) := do
  if ← f.declares name then
    (← f.services).readClass ⟨f.package, name⟩
  else return none

namespace AliasFragment

/-- The class of the first target that declares `name`. -/
def contributed (a : AliasFragment) (name : Name) : Query (Option ClassDescriptor) :=
  go a.targets
where
  go : List StoredFragment → Query (Option ClassDescriptor)
    | [] => return none
    | f :: rest => do
      if ← f.declares name then f.contributed name else go rest

/-- The names that the targets declare, without repetition. -/
def classNames (a : AliasFragment) : Query (List Name) := do
  return (← a.targets.mapM StoredFragment.classNames).flatten.eraseDups

end AliasFragment

namespace ExportedFragment

/-- The descriptor that stands for a declaration, one for each. -/
def placeholder (f : ExportedFragment) (declaration : QualName) : Query ClassDescriptor := do
  let key := (f.identity, declaration)
  match (← get).placeholders.get? key with
  | some c => return c
  | none =>
    let c := ClassDescriptor.ofDeclaration (← Query.fresh) declaration
    modify fun store => { store with placeholders := store.placeholders.set key c }
    return c

/-- The placeholder of a declaration of that dotted name. -/
def placeholderFor (f : ExportedFragment) (declaration : QualName) :
    Query (Option ClassDescriptor) := do
  if f.declares declaration then return some (← f.placeholder declaration) else return none

/-- The placeholder of the first declaration whose last segment is `name`. -/
def contributed (f : ExportedFragment) (name : Name) : Query (Option ClassDescriptor) := do
  match f.declarations.find? (·.shortName == name) with
  | some declaration => return some (← f.placeholder declaration)
  | none => return none

end ExportedFragment

namespace Fragment

/-- The class that the fragment offers under `name`. -/
def contributed (f : Fragment) (name : Name) : Query (Option ClassDescriptor) :=
  match f with
  | stored f => f.contributed name
  | aliasing f => f.contributed name
  | exported f => f.contributed name

/-- The names under which the fragment offers classes. -/
def classNames (f : Fragment) : Query (List Name) :=
  match f with
  | stored f => f.classNames
  | aliasing f => f.classNames
  | exported f => return f.classNames

end Fragment

namespace Services

/-- The first class that a fragment of its package offers, stored fragments first. -/
def findClass (s : Services) (id : ClassId) : Query (Option ClassDescriptor) := do
  Query.firstAnswer (·.contributed id.relative) (← s.liveFragments id.package)

/-- Like `findClass`, with a placeholder where there is no class. -/
def resolveClass (s : Services) (id : ClassId) : Query ClassDescriptor := do
  match ← s.findClass id with
  | some c => return c
  | none => return (← s.missingClass id 0).descriptor

end Services

end SymbolAtlas
