import SymbolAtlas.Symbols.Graph

/-!
# What libraries mean

The answers that follow from what libraries hold and how they are read, with nothing kept between
look-ups. Whatever is made is compared without the identities that it is given then: what is anonymous
has identity zero.

* `Library.servicesOf`: the services of a module that the library is loaded into;
* `StoredFragment.reading`: the payload of a part;
* `Services.classOf`: the class of an id that the stored fragments of a module declare;
* `Fragment.meaning`: the class that a fragment offers under a name.
-/

namespace SymbolAtlas

/-! ## Without identities -/

def MissingClass.anonymous (m : MissingClass) : MissingClass :=
  { m with identity := 0 }

def AnnotationClass.anonymous : AnnotationClass → AnnotationClass
  | declared id => declared id
  | missing placeholder => missing placeholder.anonymous

def Annotation.anonymous (a : Annotation) : Annotation :=
  { a with annotationClass := a.annotationClass.anonymous }

def ClassDescriptor.anonymous (c : ClassDescriptor) : ClassDescriptor :=
  { c with identity := 0, annotations := c.annotations.map Annotation.anonymous }

def StoredFragment.anonymous (f : StoredFragment) : StoredFragment :=
  { f with identity := 0, owner := none, counters := 0 }

def Fragment.anonymous : Fragment → Fragment
  | stored f => stored f.anonymous
  | aliasing a => aliasing ⟨a.space, a.targets.map StoredFragment.anonymous, none⟩
  | exported e => exported { e with identity := 0 }

def Provider.anonymous (p : Provider) : Provider :=
  ⟨0, p.layers.map (List.map Fragment.anonymous)⟩

theorem Provider.fragments_anonymous (p : Provider) :
    p.anonymous.fragments = p.fragments.map Fragment.anonymous := by
  simp [Provider.anonymous, Provider.fragments, List.map_flatten]

theorem Provider.storedFragments_anonymous (p : Provider) :
    p.anonymous.storedFragments = p.storedFragments.map StoredFragment.anonymous := by
  have hstored (f : Fragment) : f.anonymous.stored? = f.stored?.map StoredFragment.anonymous := by
    cases f <;> rfl
  simp only [storedFragments, fragments_anonymous, List.filterMap_map, List.map_filterMap,
    Function.comp_def, hstored]

def Services.anonymous (c : Services) : Services :=
  { c with identity := 0, counters := 0, provider := c.provider.anonymous }

/-! ## Loaded modules -/

namespace Library

def storedOf (l : Library) (header : Header) (reports : Bool) : List StoredFragment :=
  (numberParts [] (header.packages.map QualName.ofText)).map fun (package, part) =>
    { identity := 0, package, part, library := l, owner := none, reports, counters := 0 }

def syntheticOf (l : Library) (stored : List StoredFragment) : Except LoadError (List Fragment) :=
  if !l.manifest.isInterop then .ok []
  else match l.manifest.package with
    | none => .error (.inconsistentManifest l.name)
    | some package => .ok <|
      (ForwardNamespace.all.map fun space =>
        .aliasing ⟨space, stored.filter (·.package == package), none⟩) ++
        [.exported ⟨0, package, l.manifest.exportedForwardDeclarations⟩]

/-- The services of a module that the library is loaded into, when this is its header. -/
def servicesFrom (l : Library) (options : LoadOptions) (header : Header) :
    Except LoadError Services := do
  let stored := l.storedOf header options.reports
  let synthetic ← l.syntheticOf stored
  return {
    identity := 0
    moduleName := .special header.moduleName
    policy := options.settings.policy
    decoder := options.decoder
    counters := 0
    provider := ⟨0, [stored.map .stored, synthetic]⟩ }

def servicesOf (l : Library) (options : LoadOptions) : Except LoadError Services := do
  let bytes ← l.header.mapError (.libraryRead l.name "module header")
  let header ← Header.parse l.name bytes
  l.servicesFrom options header

end Library

/-! ## Parts and records -/

def StoredFragment.reading (f : StoredFragment) (c : Services) : Except LoadError Payload := do
  let library := f.library.name
  let bytes ← (f.library.payload f.package f.part).mapError
    (.libraryRead library ("metadata of package `" ++ f.package.text ++ "`"))
  let payload ← (c.decoder f.package bytes).mapError (.corruptPackage library f.package.text)
  if !c.policy.skipVersionCheck && !payload.version.isCompatibleWith .current then
    throw (.incompatibleMetadata library f.package.text payload.version.toText
      MetadataVersion.current.toText)
  return payload

def StoredFragment.recordOf (f : StoredFragment) (c : Services) (name : Name) :
    Except LoadError (Option ClassRecord) :=
  return (← f.reading c).class? name

def StoredFragment.hasRecord (f : StoredFragment) (c : Services) (name : Name) :
    Except LoadError Bool :=
  return (← f.recordOf c name).isSome

namespace Services

/-- What a fragment contributes to the search for the record of a class. -/
def recordIn (c : Services) (name : Name) : Fragment →
    Except LoadError (Option (StoredFragment × ClassRecord))
  | .stored f => return (← f.recordOf c name).map fun record => (f, record)
  | _ => return none

def recordOf (c : Services) (id : ClassId) : Except LoadError (Option (StoredFragment × ClassRecord)) :=
  (c.provider.packageFragments id.package).findSomeM? (c.recordIn id.relative)

def annotationOf (c : Services) (record : AnnotationRecord) : Except LoadError Annotation := do
  let id := ClassId.parse record.className
  let annotationClass := match ← c.recordOf id with
    | some _ => .declared id
    | none => .missing ⟨0, id, 0⟩
  return ⟨annotationClass, record.arguments.map fun (name, value) =>
    (⟨name⟩, value.map ClassId.parse)⟩

def classFrom (c : Services) (id : ClassId) (record : ClassRecord) :
    Except LoadError ClassDescriptor :=
  return .ofRecord 0 id record (← record.annotations.mapM c.annotationOf)

def classOf (c : Services) (id : ClassId) : Except LoadError (Option ClassDescriptor) := do
  match ← c.recordOf id with
  | some (_, record) => some <$> c.classFrom id record
  | none => return none

/-- The services as they answer when their provider is no longer in use. -/
def emptied (c : Services) : Services :=
  { c with provider := { c.provider with layers := [] } }

end Services

/-! ## Fragments -/

def StoredFragment.meaning (f : StoredFragment) (c : Services) (name : Name) :
    Except LoadError (Option ClassDescriptor) := do
  if ← f.hasRecord c name then c.classOf ⟨f.package, name⟩ else return none

def AliasFragment.meaning (a : AliasFragment) (c : Services) (name : Name) :
    Except LoadError (Option ClassDescriptor) :=
  go a.targets
where
  go : List StoredFragment → Except LoadError (Option ClassDescriptor)
    | [] => return none
    | f :: rest => do
      if ← f.hasRecord c name then f.meaning c name else go rest

def ExportedFragment.meaning (f : ExportedFragment) (name : Name) : Option ClassDescriptor :=
  (f.declarations.find? (·.shortName == name)).map (.ofDeclaration 0)

def Fragment.meaning (c : Services) (name : Name) : Fragment →
    Except LoadError (Option ClassDescriptor)
  | stored f => f.meaning c name
  | aliasing f => f.meaning c name
  | exported f => return f.meaning name

namespace Services

def found (c : Services) (id : ClassId) : Except LoadError (Option ClassDescriptor) :=
  (c.provider.packageFragments id.package).findSomeM? (Fragment.meaning c id.relative)

/-- The class that is found under an id, or what stands for it. -/
def resolved (c : Services) (id : ClassId) : Except LoadError ClassDescriptor :=
  return (← c.found id).getD (MissingClass.mk 0 id 0).descriptor

end Services

end SymbolAtlas
