import SymbolAtlas.Failure
import SymbolAtlas.Files.Tree
import SymbolAtlas.Language
import SymbolAtlas.Toml.Document

/-!
# Configuration

Settings are read from two TOML files, one of the user and one of the project. A file has two sections,
`language` and `interop`. What the project sets goes before what the user sets; a switch that either
one turns on is on, and an empty list of repositories sets nothing.
-/

namespace SymbolAtlas

structure LanguageConfig where
  version : Option String := none
  skipVersionCheck : Bool := false
  allowUnstable : Bool := false
  deriving DecidableEq, Inhabited

/-- The settings of the `interop` section: the programs of the two stages, and where libraries are. -/
structure InteropConfig where
  tool : Option String := none
  compiler : Option String := none
  flavor : Option String := none
  repositories : List String := []
  defaultsDir : Option String := none
  deriving DecidableEq, Inhabited

structure Config where
  language : LanguageConfig := {}
  interop : InteropConfig := {}
  deriving DecidableEq, Inhabited

namespace Config

/-! ## Reading a document -/

/-- The settings of a section, under their names or listed in a fixed order. -/
inductive Section
  | named (entries : List (String × Toml.Value))
  | listed (items : List Toml.Value)

namespace Section

/-- A section is a table or an array. A date counts as a table without entries. -/
def ofValue? : Toml.Value → Option Section
  | .table entries => some (.named entries)
  | .array items => some (.listed items)
  | .date _ => some (.named [])
  | _ => none

/-- A section that a document may lack. -/
def ofEntry? : Option Toml.Value → Option Section
  | none => some (.named [])
  | some v => ofValue? v

/-- The setting `name`, which is the one numbered `index` where settings are listed. -/
def setting? (s : Section) (index : Nat) (name : String) : Option Toml.Value :=
  match s with
  | named entries => entries.lookup name
  | listed items => items[index]?

end Section

def text? : Option Toml.Value → Option (Option String)
  | none => some none
  | some (.text s) => some (some s)
  | some _ => none

def switch? : Option Toml.Value → Option Bool
  | none => some false
  | some (.bool b) => some b
  | some _ => none

def texts? : Option Toml.Value → Option (List String)
  | none => some []
  | some (.array items) => items.mapM fun
    | .text s => some s
    | _ => none
  | some _ => none

def language? (s : Section) : Option LanguageConfig := do
  let version ← text? (s.setting? 0 "version")
  let skipVersionCheck ← switch? (s.setting? 1 "skip_metadata_version_check")
  let allowUnstable ← switch? (s.setting? 2 "allow_unstable_dependencies")
  return { version, skipVersionCheck, allowUnstable }

def interop? (s : Section) : Option InteropConfig := do
  let tool ← text? (s.setting? 0 "tool")
  let compiler ← text? (s.setting? 1 "compiler")
  let flavor ← text? (s.setting? 2 "flavor")
  let repositories ← texts? (s.setting? 3 "repos")
  let defaultsDir ← text? (s.setting? 4 "default_libs_dir")
  return { tool, compiler, flavor, repositories, defaultsDir }

/-- Reads a configuration file. Unknown keys are no error, a setting of the wrong type is. -/
def parse? (text : String) : Option Config := do
  let entries ← Toml.parse? text
  let language ← language? (← Section.ofEntry? (entries.lookup "language"))
  let interop ← interop? (← Section.ofEntry? (entries.lookup "interop"))
  return { language, interop }

/-! ## Merging -/

/-- The settings of `project` before those of `user`. -/
def merge (user project : Config) : Config where
  language :=
    { version := project.language.version.or user.language.version
      skipVersionCheck := project.language.skipVersionCheck || user.language.skipVersionCheck
      allowUnstable := project.language.allowUnstable || user.language.allowUnstable }
  interop :=
    { tool := project.interop.tool.or user.interop.tool
      compiler := project.interop.compiler.or user.interop.compiler
      flavor := project.interop.flavor.or user.interop.flavor
      repositories :=
        if project.interop.repositories.isEmpty then user.interop.repositories
        else project.interop.repositories
      defaultsDir := project.interop.defaultsDir.or user.interop.defaultsDir }

/-! ## Files -/

open Files

inductive Fault
  | unreadable (path : Path) (fault : Files.Fault)
  | malformed (path : Path)
  deriving DecidableEq

def Fault.message : Fault → String
  | unreadable path _ => "failed to read config file: " ++ path.text
  | malformed path => "failed to parse config file: " ++ path.text

def load (t : Tree) (path : Path) : Except Fault Config := do
  let text ← (t.readText path).mapError (Fault.unreadable path)
  match parse? text with
  | some c => return c
  | none => throw (.malformed path)

/-- The configuration in a file; one that is missing or cannot be used sets nothing. -/
def loadOrDefault (t : Tree) (path : Path) : Config :=
  match load t path with
  | .ok c => c
  | .error _ => {}

/-- The configuration of the user's file and the project's file together. -/
def loadBoth (t : Tree) (user project : Path) : Config :=
  (loadOrDefault t user).merge (loadOrDefault t project)

/-- Where the configuration file is in a home directory or a project. -/
def pathIn (dir : Path) : Path :=
  (dir.join ".libgraph").join "config.toml"

/-- The configuration for a command that is run in `dir`. -/
def loadFor (t : Tree) (home dir : Path) : Config :=
  loadBoth t (pathIn home) (pathIn dir)

/-! ## What follows from a configuration -/

def defaultFlavor : String :=
  "native"

/-- The flavor of a build, unless it is given otherwise. -/
def flavor (c : Config) : String :=
  c.interop.flavor.getD defaultFlavor

/-- The version of the language that is configured, else the latest stable one. -/
def languageVersion (c : Config) : Except LanguageVersion.Fault LanguageVersion :=
  match c.language.version with
  | none => .ok .latestStable
  | some text => LanguageVersion.parse text

def settings (c : Config) : Except Failure LanguageSettings :=
  match c.languageVersion with
  | .error fault => .error (.plain ["invalid `language.version`: " ++ fault.message])
  | .ok version =>
    .ok { version, skipVersionCheck := c.language.skipVersionCheck,
          allowUnstable := c.language.allowUnstable }

end Config

end SymbolAtlas
