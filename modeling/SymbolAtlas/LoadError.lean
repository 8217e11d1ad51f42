import SymbolAtlas.Diagnostic
import SymbolAtlas.Files.Fault

namespace SymbolAtlas

/-- Why a library cannot be loaded, or a loaded module cannot answer. -/
inductive LoadError
  | corruptHeader (library message : String)
  | inconsistentManifest (library : String)
  | libraryRead (library what : String) (fault : Files.Fault)
  | corruptPackage (library package message : String)
  | incompatibleMetadata (library package found expected : String)
  | moduleNotInitialized (module : String)
  | moduleAlreadyInitialized (module : String)
  | componentsMissing (package : String)
  | componentsAlreadySet (package : String)
  deriving DecidableEq, Inhabited

namespace LoadError

def message : LoadError → String
  | corruptHeader library message =>
    "corrupt module header in library `" ++ library ++ "`: " ++ message
  | inconsistentManifest library =>
    "inconsistent manifest: interop library `" ++ library ++ "` should have `package` specified"
  | libraryRead library what _ => "failed to read " ++ what ++ " of library `" ++ library ++ "`"
  | corruptPackage library package message =>
    "corrupt metadata for package `" ++ package ++ "` in library `" ++ library ++ "`: " ++ message
  | incompatibleMetadata library package found expected =>
    "package `" ++ package ++ "` in library `" ++ library ++ "` has metadata version " ++ found ++
      ", expected " ++ expected
  | moduleNotInitialized module => "module `" ++ module ++ "` was queried before it was initialized"
  | moduleAlreadyInitialized module => "module `" ++ module ++ "` is already initialized"
  | componentsMissing package => "package `" ++ package ++ "` has no deserialization components"
  | componentsAlreadySet package =>
    "deserialization components for package `" ++ package ++ "` are already set"

/-- The library that the error is about, if it is about one. -/
def library : LoadError → Option String
  | corruptHeader library _ => some library
  | inconsistentManifest library => some library
  | libraryRead library _ _ => some library
  | corruptPackage library _ _ => some library
  | incompatibleMetadata library _ _ _ => some library
  | moduleNotInitialized _ => none
  | moduleAlreadyInitialized _ => none
  | componentsMissing _ => none
  | componentsAlreadySet _ => none

def code : LoadError → String
  | corruptHeader _ _ => "libgraph::load::corrupt_header"
  | inconsistentManifest _ => "libgraph::load::inconsistent_manifest"
  | libraryRead _ _ _ => "libgraph::load::read"
  | corruptPackage _ _ _ => "libgraph::load::corrupt_package"
  | incompatibleMetadata _ _ _ _ => "libgraph::load::incompatible_metadata"
  | moduleNotInitialized _ => "libgraph::load::not_initialized"
  | moduleAlreadyInitialized _ => "libgraph::load::already_initialized"
  | componentsMissing _ => "libgraph::load::components_missing"
  | componentsAlreadySet _ => "libgraph::load::components_already_set"

def help : LoadError → Option String
  | inconsistentManifest _ => some "add a `package=<name>` entry to the library manifest"
  | incompatibleMetadata _ _ _ _ =>
    some ("rebuild the library with a compatible compiler or set " ++
      "`skip_metadata_version_check`")
  | _ => none

def diagnostic : LoadError → Diagnostic
  | corruptHeader library message =>
    { message := "library `" ++ library ++ "` has a corrupt module header"
      context := [message]
      suggestions := [Suggestion.rebuildLibrary] }
  | inconsistentManifest library =>
    { message := "interop library `" ++ library ++ "` does not declare its package"
      context := ["`interop=true` requires a `package` entry in the manifest"]
      suggestions := [Suggestion.declarePackage] }
  | libraryRead library what fault =>
    { message := "could not read " ++ what ++ " of `" ++ library ++ "`"
      context := [fault.message]
      suggestions := [Suggestion.checkLibraryPath] }
  | corruptPackage library package message =>
    { message := "package `" ++ package ++ "` of `" ++ library ++ "` could not be decoded"
      context := [message]
      suggestions := [Suggestion.rebuildLibrary] }
  | incompatibleMetadata library package found expected =>
    { message := "package `" ++ package ++ "` of `" ++ library ++ "` uses metadata version " ++ found
      context := ["this loader reads metadata version " ++ expected]
      suggestions := [Suggestion.rebuildLibrary] }
  | error => { message := error.message }

end LoadError

end SymbolAtlas
