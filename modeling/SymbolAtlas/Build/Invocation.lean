import SymbolAtlas.Build.Layout
import SymbolAtlas.Build.Request
import SymbolAtlas.Build.Resolver
import SymbolAtlas.Tools.Command

/-!
# Builds

A build has two stages. A tool imports native headers and may hand back arguments; a compiler then
makes a library. Before the first stage the target and the libraries are resolved, and nothing is run
when that fails.

`Run` keeps the calls that a build has made beside what came of it.
-/

namespace SymbolAtlas

/-- What is settled before any program is run. -/
structure BuildPlan where
  request : BuildRequest
  target : Target
  libraries : List ResolvedLibrary
  deriving DecidableEq, Inhabited

/-- An import argument for every library that states its package, with its headers. -/
def importDirectives (libraries : List ResolvedLibrary) : List String :=
  libraries.flatMap fun library =>
    match library.package with
    | some package =>
      ["-import", package.text ++ ":" ++ ";".intercalate library.includedHeaders]
    | none => []

/-- One directive after another, in the order of the libraries: for each that states its package, that
package with the headers, and nothing for the others. -/
inductive Directs : List ResolvedLibrary → List String → Prop
  | nil : Directs [] []
  | skip {l : ResolvedLibrary} {libraries : List ResolvedLibrary} {directives : List String}
      (hpackage : l.manifest.package = none) (hrest : Directs libraries directives) :
      Directs (l :: libraries) directives
  | direct {l : ResolvedLibrary} {libraries : List ResolvedLibrary} {directives : List String}
      {package : QualName} (hpackage : l.manifest.package = some package)
      (hrest : Directs libraries directives) :
      Directs (l :: libraries) ("-import" ::
        (package.text ++ ":" ++ ";".intercalate l.manifest.includedHeaders) :: directives)

theorem directs_iff {libraries : List ResolvedLibrary} {directives : List String} :
    Directs libraries directives ↔ directives = importDirectives libraries := by
  constructor
  · intro h
    induction h with
    | nil => rfl
    | skip hpackage _ ih => simp [importDirectives, ResolvedLibrary.package, hpackage, ih]
    | direct hpackage _ ih =>
      simp [importDirectives, ResolvedLibrary.package, ResolvedLibrary.includedHeaders, hpackage, ih]
  · rintro rfl
    induction libraries with
    | nil => exact .nil
    | cons l rest ih =>
      cases hpackage : l.manifest.package with
      | none => simpa [importDirectives, ResolvedLibrary.package, hpackage] using ih.skip hpackage
      | some package =>
        simpa [importDirectives, ResolvedLibrary.package, ResolvedLibrary.includedHeaders, hpackage]
          using ih.direct hpackage

namespace BuildPlan

def layout (p : BuildPlan) : BuildLayout :=
  .ofOutput p.request.outputName

/-- Resolves what the arguments ask for, on the machine `host` with its default libraries. -/
def make (t : Files.Tree) (host : Target) (defaultsDir : Option Files.Path)
    (arguments : List String) : Except BuildError BuildPlan := do
  let request := BuildRequest.parse arguments
  let target ← Target.resolve host request.target
  let search : LibrarySearch :=
    { repositories := request.repositories.map Files.Path.mk, target, defaultsDir,
      dropDefaults := request.dropDefaults }
  return { request, target, libraries := ← search.resolve t request.libraries }

def importArguments (p : BuildPlan) (flavor : String) : List String :=
  ["-generated", p.layout.generatedDir.text, "-natives", p.layout.nativesDir.text,
    "-cstubsname", BuildLayout.stubsName, "-manifest", p.layout.manifest.text, "-flavor", flavor,
    "-temporaryFilesDir", p.request.temporaryDir] ++
    importDirectives p.libraries ++ p.request.passedThrough

/-- The flavor whose stubs are scripts on every target. -/
def scriptFlavor : String :=
  "wasm"

def hasScriptStubs (p : BuildPlan) (flavor : String) : Bool :=
  flavor == scriptFlavor || p.target.isScriptLike

/-- The arguments for the compiler, with those that the first stage has handed back. -/
def compilerArguments (p : BuildPlan) (flavor : String) (extra : List String) : List String :=
  [p.layout.generatedDir.text, "-produce", "library", "-o", p.request.outputName,
    "-target", p.target.visibleName, "-manifest", p.layout.manifest.text,
    "--temporary_files_dir", p.request.temporaryDir] ++
    p.layout.stubArguments (p.hasScriptStubs flavor) ++ extra ++
    (p.request.libraries.flatMap fun library => ["-library", library]) ++
    (p.request.repositories.flatMap fun repository => ["-repo", repository]) ++
    p.request.switches

end BuildPlan

/-- Everything decided for one build, the arguments of both stages included. -/
structure Invocation where
  target : Target
  layout : BuildLayout
  libraries : List ResolvedLibrary
  importArguments : List String
  compilerArguments : List String
  deriving DecidableEq, Inhabited

def BuildPlan.invocation (p : BuildPlan) (flavor : String) (extra : List String) : Invocation :=
  { target := p.target, layout := p.layout, libraries := p.libraries,
    importArguments := p.importArguments flavor,
    compilerArguments := p.compilerArguments flavor extra }

/-- Imports native headers for a flavor, and may hand back arguments for the compiler. -/
abbrev HeaderImporter := String → List String → Except BuildError (Option (List String))

/-- The importer that runs a program. Each line that the program writes and that is not blank is an
argument. -/
def HeaderImporter.ofProgram (programs : Programs) (program : String) : HeaderImporter :=
  fun _ arguments =>
    match programs.captureChecked { program, arguments } with
    | .error failure => .error (.toolFailed program failure.message)
    | .ok output =>
      let lines := (Text.lines (Text.textOfBytes output.stdout).toList).map Text.trim
      let extra := (lines.filter (!·.isEmpty)).map String.ofList
      .ok (if extra.isEmpty then none else some extra)

inductive Call
  | importHeaders (flavor : String) (arguments : List String)
  | produce (program : String) (arguments : List String)
  deriving DecidableEq

/-- The calls that were made, and what came of them. -/
structure Run (ε α : Type) where
  calls : List Call
  result : Except ε α

/-- The first stage: resolves the request and imports the headers. -/
def invoke (t : Files.Tree) (host : Target) (defaultsDir : Option Files.Path)
    (importer : HeaderImporter) (flavor : String) (arguments : List String) :
    Run BuildError Invocation :=
  match BuildPlan.make t host defaultsDir arguments with
  | .error e => ⟨[], .error e⟩
  | .ok plan =>
    let importArguments := plan.importArguments flavor
    ⟨[.importHeaders flavor importArguments],
      (importer flavor importArguments).map fun extra => plan.invocation flavor (extra.getD [])⟩

end SymbolAtlas
