import SymbolAtlas.Text.Blank

/-!
# Flags

The form of a command line: flags by long and short names, with or without values, among plain words.
A flag that is not known, lacks its value, or is given twice although it may not be, makes the whole
line unusable, and so does a word that has no place. Of several such things the first one counts.
-/

namespace SymbolAtlas.CommandLine

/-- Why a command line asks for no command. -/
inductive Stop
  | help
  | version
  | misuse
  deriving DecidableEq

/-- What a flag does: it is on when given, it takes a value, or it ends the reading of the line. -/
inductive FlagUse
  | switch
  | value (repeats mayBeEmpty : Bool)
  | ends (stop : Stop)
  deriving DecidableEq

structure Flag where
  long : String
  short : Option Char := none
  use : FlagUse := .switch
  deriving DecidableEq

/-- What was given: flags with their values, words, and the arguments after two hyphens alone. -/
structure Given where
  flags : List (Flag × String) := []
  words : List String := []
  trailing : List String := []

namespace Given

def has (g : Given) (flag : Flag) : Bool :=
  g.flags.any (·.1 == flag)

def values (g : Given) (flag : Flag) : List String :=
  (g.flags.filter (·.1 == flag)).map (·.2)

/-- Adds a flag with its value. Only a flag whose values add up may be given twice. -/
def add (g : Given) (flag : Flag) (value : String) : Except Stop Given :=
  let refused := match flag.use with
    | .value repeats mayBeEmpty => (!repeats && g.has flag) || (!mayBeEmpty && value.isEmpty)
    | _ => g.has flag
  match flag.use with
  | .ends stop => .error stop
  | _ => if refused then .error .misuse else .ok { g with flags := g.flags ++ [(flag, value)] }

end Given

def Flag.takesValue (f : Flag) : Bool :=
  match f.use with
  | .value .. => true
  | _ => false

inductive Argument
  | word
  | escape
  | long (name : String) (value : Option String)
  | short (letters : List Char)

/-- How an argument reads. A hyphen alone is a word. -/
def Argument.ofText (s : String) : Argument :=
  match s.toList with
  | ['-', '-'] => escape
  | '-' :: '-' :: rest =>
    match Text.splitFirst (· == '=') rest with
    | some (name, value) => long (String.ofList name) (some (String.ofList value))
    | none => long (String.ofList rest) none
  | '-' :: c :: rest => short (c :: rest)
  | _ => word

/-- Whether an argument may be the value of the flag before it. -/
def isPlain (s : String) : Bool :=
  match Argument.ofText s with
  | .word => true
  | _ => false

/-- Adds a cluster of short flags. The first one that takes a value takes the rest of the cluster,
or waits for the next argument when nothing is left. -/
def addCluster (flags : List Flag) (g : Given) : List Char → Except Stop (Given × Option Flag)
  | [] => .ok (g, none)
  | c :: rest =>
    match flags.find? (·.short == some c) with
    | none => .error .misuse
    | some flag =>
      if !flag.takesValue then do addCluster flags (← g.add flag "") rest
      else match rest with
        | [] => .ok (g, some flag)
        | '=' :: value => do return (← g.add flag (String.ofList value), none)
        | value => do return (← g.add flag (String.ofList value), none)

/-- Adds a long flag, which may wait for the next argument. -/
def addLong (flags : List Flag) (g : Given) (name : String) (value : Option String) :
    Except Stop (Given × Option Flag) :=
  match flags.find? (·.long == name), value with
  | none, _ => .error .misuse
  | some flag, none => do
    if flag.takesValue then return (g, some flag) else return (← g.add flag "", none)
  | some flag, some value => do
    if flag.takesValue then return (← g.add flag value, none) else throw .misuse

/-- What a line may hold: some flags, and words of which the next one is looked at together with
those before it. -/
structure Form where
  flags : List Flag
  takesWord : List String → String → Bool

/-- Reads the arguments of a line. With `toWord` reading stops before the first word, and the
arguments from there on are left. -/
def scan (form : Form) (toWord : Bool) (g : Given) :
    List String → Except Stop (Given × List String)
  | [] => .ok (g, [])
  | argument :: rest =>
    match Argument.ofText argument with
    | .escape => .ok ({ g with trailing := rest }, [])
    | .word =>
      if toWord then .ok (g, argument :: rest)
      else if form.takesWord g.words argument then
        scan form toWord { g with words := g.words ++ [argument] } rest
      else .error .misuse
    | .long name value =>
      match addLong form.flags g name value with
      | .error stop => .error stop
      | .ok (g, none) => scan form toWord g rest
      | .ok (g, some flag) => afterFlag g flag rest
    | .short letters =>
      match addCluster form.flags g letters with
      | .error stop => .error stop
      | .ok (g, none) => scan form toWord g rest
      | .ok (g, some flag) => afterFlag g flag rest
where
  /-- Reads on after a flag that waits for its value. -/
  afterFlag (g : Given) (flag : Flag) : List String → Except Stop (Given × List String)
    | [] => .error .misuse
    | value :: rest =>
      if isPlain value then
        match g.add flag value with
        | .error stop => .error stop
        | .ok g => scan form toWord g rest
      else .error .misuse

end SymbolAtlas.CommandLine
