import SymbolAtlas.Tools.Machine

namespace SymbolAtlas

inductive Tool
  | yes
  | no
  | sleep
  | echo
  | print
  | test (bracket : Bool)
  | cat
  | list
  | sh
  /-- A program of which nothing is known but where it is found. -/
  | other
  deriving DecidableEq

namespace Tool

open Files

/-- Programs that are found and of which nothing else is known. -/
def otherNames : List String :=
  ["awk", "basename", "bash", "chmod", "chown", "cmp", "cp", "cut", "date", "dd", "df", "diff",
    "dirname", "du", "env", "expr", "find", "grep", "gzip", "head", "hostname", "id", "kill", "ln",
    "md5sum", "mkdir", "mktemp", "mv", "nproc", "od", "perl", "printenv", "pwd", "readlink",
    "realpath", "rm", "rmdir", "sed", "seq", "sha256sum", "sort", "stat", "tail", "tar", "tee",
    "timeout", "touch", "tr", "uname", "uniq", "wc", "which", "whoami", "xargs"]

def named : List (String × Tool) :=
  [("true", yes), ("false", no), ("sleep", sleep), ("echo", echo), ("printf", print),
    ("test", test false), ("[", test true), ("cat", cat), ("ls", list), ("sh", sh), ("dash", sh)] ++
    otherNames.map (·, other)

/-- The directories with the installed programs, as they are searched. -/
def searchPath : String :=
  "/usr/bin:/bin"

def places : List (Place × Tool) :=
  [["bin"], ["usr", "bin"]].flatMap fun dir => named.map fun (name, tool) => (dir ++ [name], tool)

/-- A machine's files with the installed programs among them. -/
def amongTools (t : Tree) : Tree :=
  places.foldl (fun t p => t.put p.1 (.file [0x7F])) (Machine.around t)

/-- The program at a path. No other file can be run. -/
def atPath (t : Tree) (path : Path) : Except Fault Tool := do
  let place ← t.place path
  match t.get? place, places.lookup place with
  | none, _ => throw .missing
  | some (.file _), some tool => return tool
  | _, _ => throw .denied

/-- The program of that name in the first of some directories that has it, with its path. A file that
cannot be run is passed over, but told of when there is none that can. -/
def inDirectories (t : Tree) (name : String) (denied : Bool) :
    List String → Except Fault (Path × Tool)
  | [] => .error (if denied then .denied else .missing)
  | dir :: rest =>
    let path := (Files.Path.mk dir).join name
    match atPath t path with
    | .ok tool => .ok (path, tool)
    | .error .missing => inDirectories t name denied rest
    | .error .notDirectory => inDirectories t name denied rest
    | .error .denied => inDirectories t name true rest
    | .error fault => .error fault

/-- The path of the program that a name means, and the program: a path if there is a slash in the
name, else what `search` leads to, a list of directories with colons between them. -/
def locate (t : Tree) (search name : String) : Except Fault (Path × Tool) :=
  if name.toList.contains '/' then (atPath t ⟨name⟩).map (⟨name⟩, ·)
  else if name.isEmpty then .error .missing
  else if Tree.nameLimit < name.utf8ByteSize then .error .nameTooLong
  else inDirectories t name false ((search.toList.splitOn ':').map String.ofList)

def find (t : Tree) (search name : String) : Except Fault Tool :=
  (locate t search name).map (·.2)

end Tool

end SymbolAtlas
