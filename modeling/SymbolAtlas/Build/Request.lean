/-!
# Build requests

What the arguments of a build ask for. The argument list is shared by the tool that imports headers
and by the compiler, so unknown arguments are no error, and every argument is looked at on its own:
the value of one flag may itself read as a flag.
-/

namespace SymbolAtlas

/-- The settings that an argument list asks for, and the list itself. -/
structure BuildRequest where
  outputName : String := "nativelib"
  target : String := "host"
  libraries : List String := []
  repositories : List String := []
  /-- Leaves the default libraries out. -/
  dropDefaults : Bool := false
  /-- Concerns the compiler alone. -/
  purgeUserLibraries : Bool := false
  temporaryDir : String := ""
  arguments : List String := []
  deriving DecidableEq, Inhabited

namespace BuildRequest

def dropDefaultsFlag : String :=
  "-nodefaultlibs"

def purgeFlag : String :=
  "--purge_user_libs"

/-- Every spelling that begins so asks for the output name. -/
def isOutputFlag (argument : String) : Bool :=
  ['-', 'o'].isPrefixOf argument.toList

/-- The request after `argument`, which `next` follows. A flag that needs a value and is the last
argument asks for nothing, but for the directory of temporary files, which it clears. -/
def take (r : BuildRequest) (argument : String) (next : Option String) : BuildRequest :=
  if isOutputFlag argument then { r with outputName := next.getD r.outputName }
  else if argument = "-target" then { r with target := next.getD r.target }
  else if argument = "-library" then { r with libraries := r.libraries ++ next.toList }
  else if argument = "-r" || argument = "-repo" then
    { r with repositories := r.repositories ++ next.toList }
  else if argument = dropDefaultsFlag then { r with dropDefaults := true }
  else if argument = purgeFlag then { r with purgeUserLibraries := true }
  else if argument = "--temporary_files_dir" then { r with temporaryDir := next.getD "" }
  else r

def scan (r : BuildRequest) : List String → BuildRequest
  | [] => r
  | argument :: rest => scan (r.take argument rest.head?) rest

def parse (arguments : List String) : BuildRequest :=
  { scan {} arguments with arguments }

/-- The arguments for the tool that imports headers: all but the two switches. -/
def passedThrough (r : BuildRequest) : List String :=
  r.arguments.filter fun a => a ≠ dropDefaultsFlag && a ≠ purgeFlag

/-- The switches that are on, for the compiler. -/
def switches (r : BuildRequest) : List String :=
  (if r.dropDefaults then [dropDefaultsFlag] else []) ++
    if r.purgeUserLibraries then [purgeFlag] else []

end BuildRequest

end SymbolAtlas
