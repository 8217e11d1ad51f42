import SymbolAtlas.Binary
import SymbolAtlas.Name

namespace SymbolAtlas

structure MetadataVersion where
  major : UInt32
  minor : UInt32
  patch : UInt32
  deriving DecidableEq, Inhabited

namespace MetadataVersion

def current : MetadataVersion :=
  ⟨1, 4, 0⟩

/-- A reader of version `reader` reads its own major version up to its minor version. -/
def isCompatibleWith (v reader : MetadataVersion) : Bool :=
  v.major == reader.major && v.minor ≤ reader.minor

def toText (v : MetadataVersion) : String :=
  s!"{v.major.toNat}.{v.minor.toNat}.{v.patch.toNat}"

def order (a b : MetadataVersion) : Ordering :=
  (compare a.major b.major).then ((compare a.minor b.minor).then (compare a.patch b.patch))

end MetadataVersion

/-- The kinds of classes, in the order of their numbers in the binary format. -/
inductive ClassKind
  | plain
  | interface
  | enumeration
  | object
  | annotationType
  deriving DecidableEq, Inhabited

namespace ClassKind

def all : List ClassKind :=
  [plain, interface, enumeration, object, annotationType]

def toText : ClassKind → String
  | plain => "Class"
  | interface => "Interface"
  | enumeration => "EnumClass"
  | object => "Object"
  | annotationType => "AnnotationClass"

def ofText? (s : String) : Option ClassKind :=
  all.find? (·.toText == s)

end ClassKind

/-- A constant argument. `Owner` is how the class of an enumeration entry is given: as text in a
payload, as a class id once it is loaded. A double is carried as the bits of its IEEE form. -/
inductive Constant (Owner : Type)
  | bool (value : Bool)
  | int (value : Int64)
  | double (bits : UInt64)
  | text (value : String)
  | entry (owner : Owner) (name : String)
  | array (items : List (Constant Owner))
  deriving Inhabited

namespace Constant

/-- The constant with its enumeration classes given another way. -/
def map {A B : Type} (f : A → B) : Constant A → Constant B
  | bool value => .bool value
  | int value => .int value
  | double bits => .double bits
  | text value => .text value
  | entry owner name => .entry (f owner) name
  | array items => .array (items.map (map f))

end Constant

/-- A use of an annotation as a payload gives it. -/
structure AnnotationRecord where
  className : String
  arguments : List (String × Constant String)

/-- A class as a payload gives it. Its name is relative to the package; supertypes and annotations
are named as in `ClassId.parse`. -/
structure ClassRecord where
  name : String
  kind : ClassKind
  typeParameters : UInt32
  supertypes : List String
  annotations : List AnnotationRecord

/-- The symbols of one part of a package. -/
structure Payload where
  package : String
  version : MetadataVersion
  classes : List ClassRecord
  functions : List String
  properties : List String
  deriving Inhabited

namespace Payload

open Binary

/-! ## Writing -/

mutual

def writeConstant : Constant String → Bytes
  | .bool value => writeNat 0 ++ writeBool value
  | .int value => writeNat 1 ++ writeInt value
  | .double bits => writeNat 2 ++ writeDouble bits
  | .text value => writeNat 3 ++ writeText value
  | .entry owner name => writeNat 4 ++ writeText owner ++ writeText name
  | .array items => writeNat 5 ++ writeNat items.length ++ writeConstants items

def writeConstants : List (Constant String) → Bytes
  | [] => []
  | c :: rest => writeConstant c ++ writeConstants rest

end

def writeArgument (a : String × Constant String) : Bytes :=
  writeText a.1 ++ writeConstant a.2

def writeAnnotationRecord (a : AnnotationRecord) : Bytes :=
  writeText a.className ++ writeList writeArgument a.arguments

def kindIndex (k : ClassKind) : Nat :=
  ClassKind.all.idxOf k

def writeClass (c : ClassRecord) : Bytes :=
  writeText c.name ++ writeNat (kindIndex c.kind) ++ writeNat c.typeParameters.toNat ++
    writeList writeText c.supertypes ++ writeList writeAnnotationRecord c.annotations

def writeVersion (v : MetadataVersion) : Bytes :=
  writeNat v.major.toNat ++ writeNat v.minor.toNat ++ writeNat v.patch.toNat

def write (p : Payload) : Bytes :=
  writeText p.package ++ writeVersion p.version ++ writeList writeClass p.classes ++
    writeList writeText p.functions ++ writeList writeText p.properties

/-- The longest payload that is written. -/
def sizeLimit : Nat :=
  256 * 1024 * 1024

/-- The payload file, unless the payload is too long to write. -/
def encode? (p : Payload) : Option Bytes :=
  if p.write.length ≤ sizeLimit then some p.write else none

/-! ## Reading -/

/-- Reads a constant whose arrays nest at most `depth` deep. An array takes two bytes before its
first item, so the number of bytes bounds the depth, and bytes that end deeper are cut. -/
def readConstantTo : Nat → Reader (Constant String)
  | 0 => fail .numberCut
  | depth + 1 => do
    match ← readKind 6 with
    | 0 => return .bool (← readBool)
    | 1 => return .int (← readInt)
    | 2 => return .double (← readDouble)
    | 3 => return .text (← readText)
    | 4 => do
      let owner ← readText
      let name ← readText
      return .entry owner name
    | _ => return .array (← readList (readConstantTo depth))

def readConstant : Reader (Constant String) := fun bytes =>
  readConstantTo (bytes.length + 1) bytes

def readArgument : Reader (String × Constant String) := do
  let name ← readText
  let value ← readConstant
  return (name, value)

def readAnnotationRecord : Reader AnnotationRecord := do
  let className ← readText
  let arguments ← readList readArgument
  return ⟨className, arguments⟩

def readClassKind : Reader ClassKind := do
  match ← readKind 5 with
  | 0 => return .plain
  | 1 => return .interface
  | 2 => return .enumeration
  | 3 => return .object
  | _ => return .annotationType

def readClass : Reader ClassRecord := do
  let name ← readText
  let kind ← readClassKind
  let typeParameters ← readU32
  let supertypes ← readList readText
  let annotations ← readList readAnnotationRecord
  return ⟨name, kind, typeParameters, supertypes, annotations⟩

def readVersion : Reader MetadataVersion := do
  let major ← readU32
  let minor ← readU32
  let patch ← readU32
  return ⟨major, minor, patch⟩

def read : Reader Payload := do
  let package ← readText
  let version ← readVersion
  let classes ← readList readClass
  let functions ← readList readText
  let properties ← readList readText
  return ⟨package, version, classes, functions, properties⟩

inductive Fault
  | unreadable (fault : Binary.Fault)
  | foreign (package : String)
  deriving DecidableEq

def Fault.message : Fault → String
  | unreadable fault => fault.message
  | foreign package => "payload declares package `" ++ package ++ "`"

/-- Reads the payload of `package`. A payload names its own package, and the names have to agree. -/
def decode (package : QualName) (bytes : Bytes) : Except Fault Payload :=
  match read.all bytes with
  | .error fault => .error (.unreadable fault)
  | .ok p => if p.package = package.text then .ok p else .error (.foreign p.package)

/-- The first class of that name. -/
def class? (p : Payload) (name : Name) : Option ClassRecord :=
  p.classes.find? (·.name == name.text)

def classNames (p : Payload) : List Name :=
  p.classes.map fun c => ⟨c.name⟩

def functionNames (p : Payload) : List Name :=
  p.functions.map Name.mk

def propertyNames (p : Payload) : List Name :=
  p.properties.map Name.mk

end Payload

end SymbolAtlas
