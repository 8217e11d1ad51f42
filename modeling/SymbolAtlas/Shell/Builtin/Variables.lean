import SymbolAtlas.Shell.Builtin.Options

namespace SymbolAtlas.Shell

open Files Activity

/-- A name and the value after an equals sign. -/
def splitAssignment (argument : String) : String × Option String :=
  let name := argument.toList.takeWhile (· != '=')
  let value := argument.toList.drop name.length
  (String.ofList name, if value.isEmpty then none else some (String.ofList (value.drop 1)))

/-- The name and the value in an argument whose name has to be good. -/
def namedArgument (argument : String) : Activity (String × Option String) := do
  let (name, value) := splitAssignment argument
  if !isName name.toList then abort (name ++ ": bad variable name")
  return (name, value)

/-- Marks variables, which can be set at the same time, or tells which ones have the mark. -/
def markVariables (command : String) (isMarked : Variable → Bool) (mark : Variable → Variable)
    (arguments : List String) : Activity Unit := do
  let (letters, arguments) ← options ['p'] arguments
  if letters.isEmpty && !arguments.isEmpty then
    for argument in arguments do
      let (name, value) ← namedArgument argument
      value.forM (assign name)
      changeVariable name mark
  else
    let marked := (← get).bindings.filter (isMarked ·.2)
    for (name, v) in marked.mergeSort (fun a b => a.1 ≤ b.1) do
      emitText 1 (command ++ " " ++ name ++ v.value.elim "" ("=" ++ singleQuoted ·) ++ "\n")
  setStatus 0

/-- Changes what the function being run has made its own. -/
def changeFrame (f : Frame → Frame) : Activity Unit :=
  modify fun s => { s with frames := match s.frames with
    | frame :: rest => f frame :: rest
    | [] => [] }

/-- Makes variables the function's own, which can be set at the same time. A hyphen stands for the
settings. -/
def runLocal (arguments : List String) : Activity Unit := do
  if (← get).frames.isEmpty then abort "not in a function"
  for argument in arguments do
    if argument = "-" then
      let settings := (← get).settings
      changeFrame fun frame => { frame with settings := some (frame.settings.getD settings) }
    else
      let (name, value) ← namedArgument argument
      let old := (← get).bindings.lookup name
      changeFrame fun frame => { frame with shadowed := (name, old) :: frame.shadowed }
      value.forM (assign name)
  setStatus 0

def runUnset (arguments : List String) : Activity Unit := do
  let (letters, names) ← options ['f', 'v'] arguments
  for name in names do
    if letters.getLast? = some 'f' then
      modify fun s => { s with functions := s.functions.filter (·.1 != name) }
    else
      if !isName name.toList then abort (name ++ ": bad variable name")
      removeVariable name
  setStatus 0

/-- What one call for an option gives: the option, its argument, the complaint, the number of the next
argument and how much of the one before has been read. -/
structure OptionStep where
  letter : Char := '?'
  argument : Option String := none
  complaint : Option String := none
  index : Nat
  offset : Option Nat := none
  ended : Bool := false

/-- Whether a letter is an option, and whether it takes an argument. -/
def optionKind? (letter : Char) : List Char → Option Bool
  | [] => none
  | c :: ':' :: rest => if c = letter then some true else optionKind? letter rest
  | c :: rest => if c = letter then some false else optionKind? letter rest

/-- Takes an option from arguments, of which the one at `index` is the next, counted from one. -/
def takeOption (letters : String) (arguments : List String) (index : Nat) (offset : Option Nat) :
    OptionStep :=
  let silent := letters.toList.head? = some ':'
  let begun : List Char :=
    if index < 2 then [] else (offset.elim [] fun n =>
      ((arguments[index - 2]?).getD "").toList.drop n)
  let here := ((arguments[index - 1]?).getD "").toList
  let (current, index) := if begun.isEmpty then (here.drop 1, index + 1) else (begun, index)
  if begun.isEmpty && (here.head? ≠ some '-' || here.length < 2) then
    { index := index - 1, ended := true }
  else if begun.isEmpty && here = ['-', '-'] then { index, ended := true }
  else match current with
    | [] => { index, ended := true }
    | letter :: rest =>
      let length := ((arguments[index - 2]?).getD "").length
      let next : Option Nat := some (length - rest.length)
      match optionKind? letter (if silent then letters.toList.drop 1 else letters.toList) with
      | none =>
        let told := String.ofList [letter]
        if silent then { argument := some told, index, offset := next }
        else { complaint := some ("Illegal option -" ++ told), index, offset := next }
      | some false => { letter, argument := some "", index, offset := next }
      | some true =>
        if !rest.isEmpty then { letter, argument := some (String.ofList rest), index }
        else match arguments[index - 1]? with
          | some value => { letter, argument := some value, index := index + 1 }
          | none =>
            let told := String.ofList [letter]
            if silent then { letter := ':', argument := some told, index, offset := next }
            else { complaint := some ("No arg for -" ++ told ++ " option"), index, offset := next }

def runGetOption (arguments : List String) : Activity Unit := do
  match arguments with
  | letters :: name :: given =>
    let s ← get
    let step := takeOption letters (if given.isEmpty then s.parameters else given) s.optionIndex
      s.optionOffset
    step.complaint.forM fun text => emitText 2 (text ++ "\n")
    match step.argument with
    | some value => assign "OPTARG" value
    | none => if !step.ended then removeVariable "OPTARG"
    assign "OPTIND" (toString step.index)
    modify fun s => { s with optionIndex := step.index, optionOffset := step.offset }
    if !isName name.toList then abort (name ++ ": bad variable name")
    assign name (String.ofList [step.letter])
    setStatus (if step.ended then 1 else 0)
  | _ => abort "Usage: getopts optstring var [arg...]"

end SymbolAtlas.Shell
