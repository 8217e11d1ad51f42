import SymbolAtlas.Payload

namespace SymbolAtlas

/-- Tells apart what was made at different times: descriptors, fragments, modules, counters. -/
abbrev Identity := Nat

/-- The reserved namespaces that forward declarations of native names live in. -/
inductive ForwardNamespace
  | cStructs
  | objCClasses
  | objCProtocols
  deriving DecidableEq, Inhabited

namespace ForwardNamespace

/-- Every namespace, in the order in which a module lists its alias fragments. -/
def all : List ForwardNamespace :=
  [cStructs, objCClasses, objCProtocols]

def package : ForwardNamespace → QualName
  | cStructs => .ofText "cnames.structs"
  | objCClasses => .ofText "objcnames.classes"
  | objCProtocols => .ofText "objcnames.protocols"

def ofPackage? (package : QualName) : Option ForwardNamespace :=
  all.find? (·.package == package)

/-- The kind of a class that stands for a forward declaration in the namespace. -/
def classKind : ForwardNamespace → ClassKind
  | cStructs => .plain
  | objCClasses => .plain
  | objCProtocols => .interface

def toText : ForwardNamespace → String
  | cStructs => "CStructs"
  | objCClasses => "ObjCClasses"
  | objCProtocols => "ObjCProtocols"

end ForwardNamespace

/-- Where a class descriptor comes from: a payload of its module, a forward declaration that a module
exports, or a reference that a module cannot satisfy. -/
inductive ClassOrigin
  | deserialized
  | forwardDeclaration
  | notFound
  deriving DecidableEq, Inhabited

/-- Stands for a class that a module refers to and does not contain. -/
structure MissingClass where
  identity : Identity
  classId : ClassId
  typeParameters : UInt32
  deriving DecidableEq, Inhabited

/-- The class of an annotation, declared in the module or missing from it. -/
inductive AnnotationClass
  | declared (classId : ClassId)
  | missing (placeholder : MissingClass)
  deriving DecidableEq

def AnnotationClass.classId : AnnotationClass → ClassId
  | declared id => id
  | missing placeholder => placeholder.classId

structure Annotation where
  annotationClass : AnnotationClass
  arguments : List (Name × Constant ClassId)

/-- The first argument of that name. -/
def Annotation.argument? (a : Annotation) (name : String) : Option (Constant ClassId) :=
  (a.arguments.find? (·.1.text == name)).map (·.2)

structure ClassDescriptor where
  identity : Identity
  classId : ClassId
  kind : ClassKind
  typeParameters : UInt32
  supertypes : List ClassId
  annotations : List Annotation
  origin : ClassOrigin

namespace ClassDescriptor

def isForwardDeclaration (c : ClassDescriptor) : Bool :=
  c.origin == .forwardDeclaration

def isNotFound (c : ClassDescriptor) : Bool :=
  c.origin == .notFound

/-- The descriptor of a class that a payload declares. -/
def ofRecord (identity : Identity) (id : ClassId) (record : ClassRecord)
    (annotations : List Annotation) : ClassDescriptor :=
  { identity, classId := id, kind := record.kind, typeParameters := record.typeParameters,
    supertypes := record.supertypes.map ClassId.parse, annotations, origin := .deserialized }

/-- The descriptor that stands for a forward declaration. Its kind follows from its namespace. -/
def ofDeclaration (identity : Identity) (declaration : QualName) : ClassDescriptor :=
  let id := ClassId.ofQualName declaration
  let kind := match ForwardNamespace.ofPackage? id.package with
    | some space => space.classKind
    | none => .plain
  { identity, classId := id, kind, typeParameters := 0, supertypes := [], annotations := [],
    origin := .forwardDeclaration }

end ClassDescriptor

def MissingClass.descriptor (m : MissingClass) : ClassDescriptor :=
  { identity := m.identity, classId := m.classId, kind := .plain,
    typeParameters := m.typeParameters, supertypes := [], annotations := [], origin := .notFound }

end SymbolAtlas
