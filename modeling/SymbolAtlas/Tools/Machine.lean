import SymbolAtlas.Files.Tree

namespace SymbolAtlas.Machine

open Files

/-- The directories that are there in any case. -/
def directories : List Place :=
  [["bin"], ["boot"], ["dev"], ["dev", "fd"], ["dev", "pts"], ["dev", "shm"], ["etc"], ["home"],
    ["lib"], ["lib64"], ["media"], ["mnt"], ["opt"], ["proc"], ["proc", "self"], ["proc", "self", "fd"],
    ["root"], ["run"], ["sbin"], ["srv"], ["sys"], ["tmp"], ["usr"], ["usr", "bin"], ["usr", "lib"],
    ["usr", "local"], ["usr", "local", "bin"], ["usr", "sbin"], ["usr", "share"], ["var"],
    ["var", "tmp"]]

/-- What is at a place that is no ordinary file. -/
inductive Device
  /-- Nothing can be read of it, and what is written to it is gone. -/
  | null
  /-- Nothing can be written to it. -/
  | full
  /-- The terminal, of which there is none. -/
  | terminal
  /-- The stream with a number. -/
  | stream (number : Nat)
  deriving DecidableEq

def deviceNames : List (Place × Device) :=
  [(["dev", "null"], .null), (["dev", "zero"], .null), (["dev", "random"], .null),
    (["dev", "urandom"], .null), (["dev", "full"], .full), (["dev", "tty"], .terminal),
    (["dev", "stdin"], .stream 0), (["dev", "stdout"], .stream 1), (["dev", "stderr"], .stream 2)]

def Device.at? (place : Place) : Option Device :=
  let stream (name : String) : Option Device :=
    if name.isEmpty || !name.toList.all Char.isDigit then none else name.toNat?.map .stream
  match place with
  | ["dev", "fd", name] => stream name
  | ["proc", "self", "fd", name] => stream name
  | _ => deviceNames.lookup place

/-- Other names of places, which only lead there. -/
def isLink (place : Place) : Bool :=
  [["bin"], ["lib"], ["lib64"], ["sbin"], ["bin", "sh"], ["usr", "bin", "sh"], ["dev", "fd"],
    ["dev", "stdin"], ["dev", "stdout"], ["dev", "stderr"], ["proc", "self"]].contains place

/-- Where a place leads to that is another name. -/
def resolved (place : Place) : Place :=
  let place := match place with
    | first :: rest =>
      if ["bin", "lib", "lib64", "sbin"].contains first then "usr" :: first :: rest else place
    | [] => []
  if place = ["usr", "bin", "sh"] then ["usr", "bin", "dash"] else place

/-- The files that are there in any case, with what is known to be in them. -/
def files : List (Place × String) :=
  [(["etc", "passwd"], "root:x:0:0:root:/root:/bin/bash\n"), (["etc", "group"], "root:x:0:\n"),
    (["etc", "hosts"], "127.0.0.1\tlocalhost\n")]

/-- A tree with what is there in any case. -/
def around (t : Tree) : Tree :=
  let t := directories.foldl (fun t dir => t.put dir .directory) t
  let t := deviceNames.foldl (fun t p => t.put p.1 (.file [])) t
  files.foldl (fun t p => t.put p.1 (.file p.2.toUTF8.toList)) t

end SymbolAtlas.Machine
