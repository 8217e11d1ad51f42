import SymbolAtlas.Json
import SymbolAtlas.Symbols.Class

namespace SymbolAtlas

/-- The sixteen hexadecimal digits of 64 bits. -/
def bitsText (bits : UInt64) : String :=
  let digits := Text.hex bits.toNat
  String.ofList (List.replicate (16 - digits.length) '0' ++ digits)

namespace Constant

mutual

/-- The constant, with the classes of enumerations shown by `owner`. -/
def toJson {Owner : Type} (owner : Owner → String) : Constant Owner → Json
  | bool value => .object [("bool", .bool value)]
  | int value => .object [("int", .text (toString value.toInt))]
  | double bits => .object [("double", .text (bitsText bits))]
  | text value => .object [("string", .text value)]
  | entry class' name => .object [("enum", .ofTexts [owner class', name])]
  | array items => .object [("array", .array (listJson owner items))]

def listJson {Owner : Type} (owner : Owner → String) : List (Constant Owner) → List Json
  | [] => []
  | c :: rest => c.toJson owner :: listJson owner rest

end

/-- The arguments of an annotation, each with its name. -/
def argumentsJson {Owner : Type} (owner : Owner → String)
    (arguments : List (String × Constant Owner)) : Json :=
  .array (arguments.map fun (name, value) => .array [.text name, value.toJson owner])

end Constant

def AnnotationRecord.toJson (a : AnnotationRecord) : Json :=
  .object [("class_id", .text a.className), ("arguments", Constant.argumentsJson id a.arguments)]

def ClassRecord.toJson (c : ClassRecord) : Json :=
  .object [("name", .text c.name), ("kind", .text c.kind.toText),
    ("type_parameters", .ofNat c.typeParameters.toNat), ("supertypes", .ofTexts c.supertypes),
    ("annotations", .array (c.annotations.map AnnotationRecord.toJson))]

def MetadataVersion.toJson (v : MetadataVersion) : Json :=
  .array [.ofNat v.major.toNat, .ofNat v.minor.toNat, .ofNat v.patch.toNat]

def Payload.toJson (p : Payload) : Json :=
  .object [("fq_name", .text p.package), ("version", p.version.toJson),
    ("classes", .array (p.classes.map ClassRecord.toJson)), ("functions", .ofTexts p.functions),
    ("properties", .ofTexts p.properties)]

/-! ## Descriptors -/

def ClassOrigin.toText : ClassOrigin → String
  | deserialized => "Deserialized"
  | forwardDeclaration => "ForwardDeclaration"
  | notFound => "NotFound"

/-- The placeholder for the annotation's class, if that is missing. -/
def Annotation.placeholder? (a : Annotation) : Option Identity :=
  match a.annotationClass with
  | .declared _ => none
  | .missing m => some m.identity

/-- The descriptor itself and the placeholders for the classes of its annotations. -/
def ClassDescriptor.identities (c : ClassDescriptor) : List Identity :=
  c.identity :: c.annotations.filterMap Annotation.placeholder?

/-- The number of a descriptor among those that were seen. -/
def numberJson (seen : List Identity) (id : Identity) : Json :=
  .ofNat (seen.idxOf id)

def Annotation.toJson (seen : List Identity) (a : Annotation) : Json :=
  let arguments := a.arguments.map fun (name, value) => (name.text, value)
  .object [("class_id", .text a.annotationClass.classId.toText),
    ("not_found_ref", a.placeholder?.elim .null (numberJson seen)),
    ("arguments", Constant.argumentsJson ClassId.toText arguments)]

def ClassDescriptor.toJson (seen : List Identity) (c : ClassDescriptor) : Json :=
  .object [("ref", numberJson seen c.identity), ("class_id", .text c.classId.toText),
    ("name", .text c.classId.shortName.text), ("fq_name", .text c.classId.qualName.text),
    ("kind", .text c.kind.toText), ("type_parameters", .ofNat c.typeParameters.toNat),
    ("supertypes", .ofTexts (c.supertypes.map ClassId.toText)),
    ("annotations", .array (c.annotations.map (·.toJson seen))),
    ("origin", .text c.origin.toText), ("forward", .bool c.isForwardDeclaration),
    ("not_found", .bool c.isNotFound)]

end SymbolAtlas
