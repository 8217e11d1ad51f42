import SymbolAtlas.Failure
import SymbolAtlas.Json

namespace SymbolAtlas

namespace LoadError

def name : LoadError → String
  | corruptHeader _ _ => "CorruptHeader"
  | inconsistentManifest _ => "InconsistentManifest"
  | libraryRead _ _ _ => "LibraryRead"
  | corruptPackage _ _ _ => "CorruptPackage"
  | incompatibleMetadata _ _ _ _ => "IncompatibleMetadata"
  | moduleNotInitialized _ => "ModuleNotInitialized"
  | moduleAlreadyInitialized _ => "ModuleAlreadyInitialized"
  | componentsMissing _ => "ComponentsMissing"
  | componentsAlreadySet _ => "ComponentsAlreadySet"

def toJson (e : LoadError) : Json :=
  .object [("error", .text e.name), ("message", .text e.message), ("library", .ofText? e.library),
    ("code", .text e.code), ("help", .ofText? e.help),
    ("diagnostic", .text (e.diagnostic.format false))]

end LoadError

namespace BuildError

def name : BuildError → String
  | unresolvedTarget _ _ => "UnresolvedTarget"
  | unresolvedLibrary _ _ => "UnresolvedLibrary"
  | incompatibleLibrary _ _ => "IncompatibleLibrary"
  | dependencyCycle _ => "DependencyCycle"
  | toolFailed _ _ => "ToolFailed"

def toJson (e : BuildError) : Json :=
  .object [("error", .text e.name), ("message", .text e.message), ("code", .text e.code),
    ("diagnostic", .text (e.diagnostic.format false))]

end BuildError

namespace Files.Fault

def Kind.name : Kind → String
  | notFound => "NotFound"
  | isADirectory => "IsADirectory"
  | notADirectory => "NotADirectory"
  | permissionDenied => "PermissionDenied"
  | alreadyExists => "AlreadyExists"
  | invalidFilename => "InvalidFilename"
  | invalidData => "InvalidData"
  | invalidInput => "InvalidInput"
  | other => "Other"

def toJson (fault : Fault) : Json :=
  .object [("error", .text fault.kind.name), ("message", .text fault.message)]

end Files.Fault

def Failure.toJson : Failure → Json
  | load e => e.toJson
  | build e => e.toJson
  | plain contexts => .object [("error", .text "Other"), ("message", .text (joined contexts))]

end SymbolAtlas
