import SymbolAtlas.Build.Stages
import SymbolAtlas.CommandLine.Arguments
import SymbolAtlas.Console
import SymbolAtlas.Report.Lookup

namespace SymbolAtlas

/-- What the program finds when it is started. -/
structure Surroundings where
  files : Files.Tree
  home : Files.Path
  programs : Programs
  host : Target := .linuxX64
  /-- The flavor that the environment gives for builds. -/
  flavor : Option String := none
  /-- Whether somebody looks at the error stream. -/
  terminal : Bool := false

namespace Surroundings

def currentDir (s : Surroundings) : Files.Path :=
  ⟨"/" ++ "/".intercalate s.files.workingDir⟩

def config (s : Surroundings) : Config :=
  Config.loadFor s.files s.home s.currentDir

end Surroundings

/-- What the program has written, and the code it exits with. -/
structure Outcome where
  exit : Nat
  written : Transcript
  deriving DecidableEq, Inhabited

namespace CommandLine

def versionText : String :=
  "libgraph 0.1.0\n"

def usageText : String :=
  "Usage: libgraph [OPTIONS] <inspect|lookup|interop|completions>\n"

/-- A script that completes the names of the commands. -/
def completionText (shell : Shell) : String :=
  let names := " ".intercalate ((commands none).map (·.1))
  match shell with
  | .bash => "complete -W \"" ++ names ++ "\" libgraph\n"
  | .zsh => "#compdef libgraph\ncompadd " ++ names ++ "\n"
  | .fish => "complete -c libgraph -f -a \"" ++ names ++ "\"\n"
  | .elvish =>
    "set edit:completion:arg-completer[libgraph] = \x7b |@words| put " ++ names ++ " \x7d\n"
  | .powershell =>
    "Register-ArgumentCompleter -Native -CommandName libgraph -ScriptBlock \x7b '" ++ names ++
      "'.Split(' ') \x7d\n"

/-- A transcript, and whether the command failed. -/
abbrev Progress := Transcript × Option Failure

/-- Goes on with the result of a step, or stops with its failure. -/
def proceed {α : Type} (t : Transcript) (r : Except Failure α) (next : α → Progress) : Progress :=
  match r with
  | .ok a => next a
  | .error failure => (t, some failure)

def showReports (console : Console) (t : Transcript) (reports : List ModuleReport) : Transcript :=
  if console.json then console.value (.array (reports.map ModuleReport.toJson)) t
  else reports.foldl (fun t r =>
    (console.status .loaded (r.module ++ " from " ++ r.library) t).print r.toText) t

def runInspect (s : Surroundings) (console : Console) (libraries : List Files.Path)
    (listNames : Bool) : Progress :=
  proceed {} s.config.settings fun settings =>
    proceed {} (libraries.mapM (ModuleReport.inspect s.files settings listNames)) fun reports =>
      (showReports console {} reports, none)

def showLookup (console : Console) (classId : String) (t : Transcript) (r : LookupReport) :
    Transcript :=
  if console.json then console.value r.toJson t
  else
    let t :=
      if r.isFound then t
      else console.status .warning
        ("`" ++ classId ++ "` is not defined by any loaded library") t
    let kind := r.kind.elim "" fun k => "  kind: " ++ k.toText ++ "\n"
    let supertypes := r.supertypes.map fun id => "  supertype: " ++ id.toText ++ "\n"
    t.print (r.toText ++ "\n" ++ kind ++ String.join supertypes)

def runLookUp (s : Surroundings) (console : Console) (classId : String)
    (libraries : List Files.Path) : Progress :=
  proceed {} s.config.settings fun settings =>
    let t := console.status .resolving
      (classId ++ s!" across {libraries.length} libraries") {}
    proceed t (LookupReport.lookUp s.files settings (ClassId.parse classId) libraries) fun r =>
      (showLookup console classId t r, none)

/-- The argument after the first `flag`. -/
def argumentAfter (flag : String) : List String → String
  | [] => ""
  | a :: rest => if a = flag then rest.head?.getD "" else argumentAfter flag rest

def runInterop (s : Surroundings) (console : Console) (flavor tool : Option String)
    (printOnly : Bool) (arguments : List String) : Progress :=
  let options : BuildOptions := { flavor, tool, printOnly, config := s.config }
  let build := runBuild s.files s.host s.programs options arguments
  let t : Transcript :=
    ⟨Text.textOfBytes build.written.stdout, Text.textOfBytes build.written.stderr⟩
  proceed t build.result fun invocation =>
    let compilerArguments := invocation.compilerArguments
    if printOnly then
      let t := console.status .info "library production skipped" t
      (t.print (" ".intercalate compilerArguments ++ "\n"), none)
    else
      let message := "`" ++ argumentAfter "-o" compilerArguments ++ "` for " ++
        invocation.target.visibleName ++ s!" with {invocation.libraries.length} libraries"
      (console.status .finished message t, none)

def perform (s : Surroundings) (c : CommandLine) : Progress :=
  let choice : ColorChoice := if c.noColor then .never else .auto
  match c.task with
  | .inspect libraries listNames json =>
    runInspect s (.make json choice s.terminal) libraries listNames
  | .lookUp classId libraries json =>
    runLookUp s (.make json choice s.terminal) classId libraries
  | .build flavor tool printOnly arguments =>
    runInterop s (.make false choice s.terminal) flavor tool printOnly arguments
  | .completions shell => (({} : Transcript).print (completionText shell), none)

/-- Runs the program. A failure is told on the error stream and exits with one, a command line that
cannot be used exits with two. -/
def run (s : Surroundings) (arguments : List String) : Outcome :=
  match parse s.flavor arguments with
  | .error .help => ⟨0, { stdout := usageText }⟩
  | .error .version => ⟨0, { stdout := versionText }⟩
  | .error .misuse => ⟨2, { stderr := usageText }⟩
  | .ok c =>
    match perform s c with
    | (t, none) => ⟨0, t⟩
    | (t, some failure) => ⟨1, t.complain (failure.report (s.terminal && !c.noColor))⟩

end CommandLine

end SymbolAtlas
