import SymbolAtlas.Symbols.Graph
import SymbolAtlas.Text.Quoted

namespace SymbolAtlas

open Text (describe describeBool describeList quote)

def ClassId.describe (id : ClassId) : String :=
  "ClassId(" ++ id.toText ++ ")"

def ReadingPolicy.describe (p : ReadingPolicy) : String :=
  Text.describe "DeserializationConfiguration"
    [("skip_metadata_version_check", describeBool p.skipVersionCheck),
      ("allow_unstable_dependencies", describeBool p.allowUnstable),
      ("type_alias_expansion", describeBool p.expandTypeAliases)] false

def LanguageVersion.describe (v : LanguageVersion) : String :=
  Text.describe "LanguageVersion"
    [("major", toString v.major.toNat), ("minor", toString v.minor.toNat)] false

def LanguageSettings.describe (s : LanguageSettings) : String :=
  Text.describe "LanguageVersionSettings"
    [("language_version", s.version.describe),
      ("skip_metadata_version_check", describeBool s.skipVersionCheck),
      ("allow_unstable_dependencies", describeBool s.allowUnstable)] false

def Counters.describe (c : Counters) : String :=
  Text.describe "StorageContext"
    [("packages_decoded", toString c.packagesDecoded),
      ("classes_deserialized", toString c.classesRead),
      ("not_found_classes", toString c.missingClasses)] false

/-- Some value or none, with the value described already. -/
def describeOption : Option String → String
  | some s => "Some(" ++ s ++ ")"
  | none => "None"

def LoadOptions.describe (o : LoadOptions) (s : Store) : String :=
  Text.describe "ModuleLoadOptions"
    [("language_settings", o.settings.describe),
      ("package_accessed_handler",
        describeOption (if o.reports then some "RecordingHandler" else none)),
      ("storage", describeOption (o.counters.map fun id => (s.countersOf id).describe))] true

def StoredFragment.describe (f : StoredFragment) (s : Store) : String :=
  Text.describe "DeserializedPackageFragment"
    [("fq_name", quote f.package.text), ("part", toString f.part),
      ("library", quote f.library.name), ("populated", describeBool (s.isPopulated f))] false

def Services.describe (services : Services) (s : Store) : String :=
  Text.describe "DeserializationComponents"
    [("module_name", quote services.moduleName.text),
      ("configuration", services.policy.describe),
      ("cached_classes", toString (s.classCells services)),
      ("not_found_classes", toString (s.missingCount services))] false

def Module.describe (m : Module) (s : Store) : String :=
  Text.describe "ModuleDescriptor"
    [("name", quote m.name.text), ("library", quote m.library.name),
      ("initialized", describeBool (m.isInitialized s))] false

def ModuleGraph.describe (g : ModuleGraph) (s : Store) : String :=
  Text.describe "ModuleGraph" [("modules", describeList (g.modules.map (·.describe s)))] false

end SymbolAtlas
