import SymbolAtlas.Text.Decimal

namespace SymbolAtlas

structure LanguageVersion where
  major : UInt32
  minor : UInt32
  deriving DecidableEq, Inhabited

namespace LanguageVersion

def latestStable : LanguageVersion :=
  ⟨1, 3⟩

def order (a b : LanguageVersion) : Ordering :=
  (compare a.major b.major).then (compare a.minor b.minor)

def toText (v : LanguageVersion) : String :=
  s!"{v.major.toNat}.{v.minor.toNat}"

inductive Fault
  | noDot (text : String)
  | badMajor (text : String)
  | badMinor (text : String)
  deriving DecidableEq

def Fault.message : Fault → String
  | noDot text => "expected `major.minor`, got `" ++ text ++ "`"
  | badMajor text => "invalid major version in `" ++ text ++ "`"
  | badMinor text => "invalid minor version in `" ++ text ++ "`"

/-- Reads `major.minor`, with white space around it allowed. -/
def parse (text : String) : Except Fault LanguageVersion :=
  match Text.splitFirst (· == '.') (Text.trim text.toList) with
  | none => .error (.noDot text)
  | some (major, minor) =>
    match Text.readU32 major, Text.readU32 minor with
    | none, _ => .error (.badMajor text)
    | some _, none => .error (.badMinor text)
    | some major, some minor => .ok ⟨major, minor⟩

end LanguageVersion

/-- What the caller asks of loading. -/
structure LanguageSettings where
  version : LanguageVersion := .latestStable
  skipVersionCheck : Bool := false
  allowUnstable : Bool := false
  deriving DecidableEq, Inhabited

/-- What is consulted while packages are read. -/
structure ReadingPolicy where
  skipVersionCheck : Bool
  allowUnstable : Bool
  expandTypeAliases : Bool
  deriving DecidableEq, Inhabited

/-- Type aliases are expanded from version 1.1 on. -/
def LanguageSettings.policy (s : LanguageSettings) : ReadingPolicy :=
  ⟨s.skipVersionCheck, s.allowUnstable, (s.version.order ⟨1, 1⟩).isGE⟩

end SymbolAtlas
