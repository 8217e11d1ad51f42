import SymbolAtlas.Shell.State

namespace SymbolAtlas.Shell

open Files Activity

def natArgument (argument : Option String) (default : Nat) : Activity Nat :=
  match argument with
  | none => return default
  | some text => natOfText text

/-- A value between quotes: single ones, and double ones around single quotes. -/
def singleQuoted (value : String) : String :=
  let runs := value.toList.splitBy fun a b => (a == '\'') == (b == '\'')
  let shown := runs.map fun run => if run.head? = some '\'' then '"' :: run ++ ['"']
    else '\'' :: run ++ ['\'']
  let front := match runs.head? with
    | some ('\'' :: _) => ['\'', '\'']
    | none => ['\'', '\'']
    | _ => []
  String.ofList (front ++ shown.flatten)

def takeLetters : List String → List Char × List String
  | [] => ([], [])
  | "--" :: rest => ([], rest)
  | argument :: rest =>
    match argument.toList with
    | '-' :: letter :: letters =>
      let (more, rest) := takeLetters rest
      (letter :: letters ++ more, rest)
    | _ => ([], argument :: rest)

/-- Takes the options at the front of arguments, of which only some letters are known. -/
def options (known : List Char) (arguments : List String) : Activity (List Char × List String) := do
  let (letters, rest) := takeLetters arguments
  match letters.find? (!known.contains ·) with
  | some letter => abort ("Illegal option -" ++ String.ofList [letter])
  | none => return (letters, rest)

/-! ## Settings -/

/-- Options at the front of arguments: the settings after them, whether a script is given as an
argument, what is told of the settings, and the arguments that are left. -/
structure Options where
  settings : Settings
  /-- Whether the options are those of a script that is started. -/
  starting : Bool := false
  hasScript : Bool := false
  listed : String := ""
  /-- Whether the options have ended with two hyphens. -/
  ended : Bool := false
  arguments : List String := []

def Options.addLetters (o : Options) (on : Bool) : List Char → Except String Options
  | [] => .ok o
  | 'o' :: rest =>
    match o.arguments with
    | name :: arguments =>
      match Setting.ofName? name with
      | some setting =>
        Options.addLetters { o with settings := o.settings.switch on setting, arguments } on rest
      | none => .error ("Illegal option -o " ++ name)
    | [] =>
      let shown := if o.starting then Setting.table.map (·.1) else o.settings
      Options.addLetters { o with listed := o.listed ++ Settings.list shown (!on) } on rest
  | letter :: rest =>
    if o.starting && letter = 'c' then Options.addLetters { o with hasScript := true } on rest
    else if o.starting && letter = 'l' then Options.addLetters o on rest
    else match Setting.ofLetter? letter with
      | some setting => Options.addLetters { o with settings := o.settings.switch on setting } on rest
      | none => .error ("Illegal option -" ++ String.ofList [letter])

/-- Reads options from the front of arguments, of which there are at most `count`. A hyphen alone
ends them, and switches two settings off unless a script is started. -/
def readOptions (o : Options) : Nat → List String → Except String Options
  | 0, arguments => .ok { o with arguments }
  | count + 1, arguments =>
    match arguments with
    | [] => .ok { o with arguments := [] }
    | first :: rest =>
      match first.toList with
      | ['-'] =>
        let settings := if o.starting then o.settings
          else (o.settings.switch false .traces).switch false .shows
        .ok { o with settings, arguments := rest }
      | ['-', '-'] => .ok { o with ended := true, arguments := rest }
      | '-' :: letters => do
        let o ← Options.addLetters { o with arguments := rest } true letters
        readOptions o count o.arguments
      | '+' :: letters => do
        let o ← Options.addLetters { o with arguments := rest } false letters
        readOptions o count o.arguments
      | _ => .ok { o with arguments }

/-- Takes over settings. There is no terminal from which jobs could be controlled. -/
def changeSettings (settings : Settings) : Activity Unit := do
  if settings.has .monitors then complain "can't access tty; job control turned off"
  modify fun s => { s with settings := settings.switch false .monitors }

def runSet (arguments : List String) : Activity Unit := do
  if arguments.isEmpty then
    let shown := (← get).bindings.filterMap fun (name, v) => v.value.map (name, ·)
    for (name, value) in shown.mergeSort (fun a b => a.1 ≤ b.1) do
      emitText 1 (name ++ "=" ++ singleQuoted value ++ "\n")
    setStatus 0
  else match readOptions { settings := (← get).settings } arguments.length arguments with
    | .error text => abort text
    | .ok o =>
      emitText 1 o.listed
      changeSettings o.settings
      setStatus 0
      if o.ended || !o.arguments.isEmpty then
        modify fun s =>
          { s with parameters := o.arguments, optionIndex := 1, optionOffset := none }

end SymbolAtlas.Shell
