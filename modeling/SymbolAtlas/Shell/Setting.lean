namespace SymbolAtlas.Shell

inductive Setting
  | stopsOnFailure
  | noWildcards
  | ignoresEnd
  | interactive
  | monitors
  | readsOnly
  | fromInput
  | traces
  | shows
  | editsFirst
  | editsSecond
  | keepsFiles
  | exportsAll
  | notifies
  | needsValues
  | privileged
  | forgets
  | debugs
  deriving DecidableEq

namespace Setting

/-- The settings in the order in which they are listed, with their letters and names. -/
def table : List (Setting × Option Char × String) :=
  [(stopsOnFailure, some 'e', "errexit"), (noWildcards, some 'f', "noglob"),
    (ignoresEnd, some 'I', "ignoreeof"), (interactive, some 'i', "interactive"),
    (monitors, some 'm', "monitor"), (readsOnly, some 'n', "noexec"), (fromInput, some 's', "stdin"),
    (traces, some 'x', "xtrace"), (shows, some 'v', "verbose"), (editsFirst, some 'V', "vi"),
    (editsSecond, some 'E', "emacs"), (keepsFiles, some 'C', "noclobber"),
    (exportsAll, some 'a', "allexport"), (notifies, some 'b', "notify"),
    (needsValues, some 'u', "nounset"), (privileged, some 'p', "privileged"),
    (forgets, none, "nolog"), (debugs, none, "debug")]

def ofLetter? (letter : Char) : Option Setting :=
  (table.find? fun (_, c, _) => c == some letter).map (·.1)

def ofName? (name : String) : Option Setting :=
  (table.find? fun (_, _, n) => n == name).map (·.1)

end Setting

abbrev Settings := List Setting

namespace Settings

def has (s : Settings) (x : Setting) : Bool :=
  s.contains x

/-- Switches a setting. Of the two ways to edit at most one is on. -/
def switch (s : Settings) (on : Bool) (x : Setting) : Settings :=
  let others := s.filter fun y => y != x &&
    !(on && x = .editsFirst && y = .editsSecond) && !(on && x = .editsSecond && y = .editsFirst)
  if on then x :: others else others

def letters (s : Settings) : String :=
  String.ofList (Setting.table.reverse.filterMap fun (x, letter, _) => if s.has x then letter else none)

/-- A list of all settings: for reading, or as commands that switch them so. -/
def list (s : Settings) (asCommands : Bool) : String :=
  let line (x : Setting) (name : String) : String :=
    if asCommands then "set " ++ (if s.has x then "-" else "+") ++ "o " ++ name ++ "\n"
    else name ++ String.ofList (List.replicate (16 - name.length) ' ') ++
      (if s.has x then "on" else "off") ++ "\n"
  (if asCommands then "" else "Current option settings\n") ++
    String.join (Setting.table.map fun (x, _, name) => line x name)

end Settings

end SymbolAtlas.Shell
