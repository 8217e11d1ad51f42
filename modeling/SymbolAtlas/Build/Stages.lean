import SymbolAtlas.Build.Invocation
import SymbolAtlas.Config

namespace SymbolAtlas

/-- What is given for a build beside its arguments. -/
structure BuildOptions where
  /-- Goes before the configured flavor. -/
  flavor : Option String := none
  /-- Goes before the configured tool. -/
  tool : Option String := none
  /-- Stops before the compiler is run. -/
  printOnly : Bool := false
  config : Config := {}
  deriving DecidableEq, Inhabited

namespace BuildOptions

def effectiveFlavor (o : BuildOptions) : String :=
  o.flavor.getD o.config.flavor

/-- The arguments with the configured repositories after them. -/
def effectiveArguments (o : BuildOptions) (arguments : List String) : List String :=
  arguments ++ o.config.interop.repositories.flatMap fun repository => ["-repo", repository]

def defaultTool : String :=
  "cinterop"

def importTool (o : BuildOptions) (programs : Programs) : Except Failure String :=
  match o.tool.or o.config.interop.tool with
  | some tool => .ok tool
  | none =>
    if programs.isInstalled defaultTool then .ok defaultTool
    else .error (.plain ["`" ++ defaultTool ++ "` not found on PATH\n" ++
      "help: Set `interop.tool` in .libgraph/config.toml or pass --tool"])

end BuildOptions

/-- What a build comes to: its calls, the invocation, and what the compiler has written. -/
structure BuildResult where
  calls : List Call
  result : Except Failure Invocation
  written : Output := {}

/-- The second stage: calls the compiler for an invocation. -/
def compile (programs : Programs) (calls : List Call) (invocation : Invocation) (program : String) :
    BuildResult :=
  let calls := calls ++ [.produce program invocation.compilerArguments]
  match programs.status { program, arguments := invocation.compilerArguments } with
  | .error failure => ⟨calls, .error failure, {}⟩
  | .ok output =>
    if output.exit.succeeded then ⟨calls, .ok invocation, output⟩
    else
      let failure := "`" ++ program ++ "` failed with exit code " ++ output.exit.describe
      ⟨calls, .error (.plain [failure]), output⟩

/-- Runs both stages with `importer` for the first one, on the machine `host`. -/
def runBuildWith (t : Files.Tree) (host : Target) (programs : Programs) (options : BuildOptions)
    (importer : HeaderImporter) (arguments : List String) : BuildResult :=
  let defaultsDir := options.config.interop.defaultsDir.map Files.Path.mk
  let first := invoke t host defaultsDir importer options.effectiveFlavor
    (options.effectiveArguments arguments)
  match first.result with
  | .error e => ⟨first.calls, .error (.build e), {}⟩
  | .ok invocation =>
    if options.printOnly then ⟨first.calls, .ok invocation, {}⟩
    else match options.config.interop.compiler with
      | some program => compile programs first.calls invocation program
      | none => ⟨first.calls, .error (.plain ["no library-production program configured\n" ++
          "help: Set `interop.compiler` in .libgraph/config.toml or use --print-only"]), {}⟩

/-- Runs both stages with the program that imports headers. -/
def runBuild (t : Files.Tree) (host : Target) (programs : Programs) (options : BuildOptions)
    (arguments : List String) : BuildResult :=
  match options.importTool programs with
  | .error failure => ⟨[], .error failure, {}⟩
  | .ok tool =>
    runBuildWith t host programs options (HeaderImporter.ofProgram programs tool) arguments

end SymbolAtlas
