import SymbolAtlas.Diagnostic

namespace SymbolAtlas

/-- Why a build stops. The first four come before any program is run. -/
inductive BuildError
  | unresolvedTarget (request : String) (known : List String)
  | unresolvedLibrary (name : String) (searched : List String)
  | incompatibleLibrary (name reason : String)
  | dependencyCycle (library : String)
  | toolFailed (tool message : String)
  deriving DecidableEq, Inhabited

namespace BuildError

def message : BuildError → String
  | unresolvedTarget request _ => "unknown target `" ++ request ++ "`"
  | unresolvedLibrary name _ => "library `" ++ name ++ "` not found"
  | incompatibleLibrary name reason => "library `" ++ name ++ "` cannot be used: " ++ reason
  | dependencyCycle library => "dependency cycle through library `" ++ library ++ "`"
  | toolFailed tool message => "`" ++ tool ++ "` failed: " ++ message

def code : BuildError → String
  | unresolvedTarget _ _ => "libgraph::interop::unresolved_target"
  | unresolvedLibrary _ _ => "libgraph::interop::unresolved_library"
  | incompatibleLibrary _ _ => "libgraph::interop::incompatible_library"
  | dependencyCycle _ => "libgraph::interop::dependency_cycle"
  | toolFailed _ _ => "libgraph::interop::tool_failed"

def diagnostic : BuildError → Diagnostic
  | unresolvedTarget request known =>
    { message := "unknown target `" ++ request ++ "`"
      context := ["known targets: " ++ ", ".intercalate known]
      suggestions := [Suggestion.listTargets] }
  | unresolvedLibrary name searched =>
    { message := "library `" ++ name ++ "` not found"
      context := searched.map ("searched: " ++ ·)
      suggestions := [Suggestion.addRepository] }
  | incompatibleLibrary name reason =>
    { message := "library `" ++ name ++ "` cannot be used"
      context := [reason]
      suggestions := [Suggestion.rebuildLibrary] }
  | dependencyCycle library =>
    { message := "libraries depend on each other in a cycle through `" ++ library ++ "`"
      context := ["check the `depends` entries of the library manifests"] }
  | toolFailed tool message =>
    { message := "`" ++ tool ++ "` failed"
      location := some tool
      context := [message]
      suggestions := [Suggestion.runVerbose] }

end BuildError

end SymbolAtlas
