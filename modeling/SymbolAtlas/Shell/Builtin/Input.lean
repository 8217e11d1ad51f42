import SymbolAtlas.Shell.Builtin.Options

namespace SymbolAtlas.Shell

open Files Activity

structure LineChar where
  char : Char
  /-- Whether a backslash has stood before it. -/
  escaped : Bool := false
  /-- Whether a backslash has stood somewhere between it and the character before. -/
  fresh : Bool := false
  deriving Inhabited

/-- Takes a line off some bytes, and tells whether it ends. After a backslash the next character
stands for itself, and a line goes on; `raw` lines know no backslashes. -/
def takeLine (raw afterBackslash fresh : Bool) : Bytes → List LineChar × Bool × Bytes
  | [] => ([], false, [])
  | b :: rest =>
    let char := Char.ofNat b.toNat
    if b = 0 then takeLine raw afterBackslash fresh rest
    else if afterBackslash then
      if b = 10 then takeLine raw false true rest
      else
        let (line, ended, rest) := takeLine raw false true rest
        ({ char, escaped := true, fresh } :: line, ended, rest)
    else if !raw && char = '\\' then takeLine raw true fresh rest
    else if b = 10 then ([], true, rest)
    else
      let (line, ended, rest) := takeLine raw false false rest
      ({ char, fresh } :: line, ended, rest)

/-- A line that is being split into at most so many fields. -/
structure LineSplit where
  /-- How many fields may still begin after the one that is being read. -/
  more : Nat
  fields : List (List Char) := []
  /-- The field that is being read, backwards. -/
  current : List Char := []
  /-- How much of the current field stands before what may be separators at its end. -/
  kept : Option Nat := none
  afterBlank : Bool := false

namespace LineSplit

def addChar (s : LineSplit) (c : Char) : LineSplit :=
  { s with current := c :: s.current }

/-- A character after the start of the last field, which keeps its separators but for those at the
line's end. -/
def addLast (separators : String) (s : LineSplit) (c : Char) : LineSplit :=
  let here := s.current.length
  let s := s.addChar c
  if isBlankSeparator separators c then { s with kept := s.kept.or (some here) }
  else if isSeparator separators c && s.afterBlank then { s with afterBlank := false }
  else { s with kept := none, afterBlank := false }

/-- Adds a character. Blanks before a field do not count, and blanks around another separator count
with it. -/
def add (separators : String) (s : LineSplit) (c : LineChar) : LineSplit :=
  let s := if c.fresh then { s with afterBlank := false } else s
  let isBlank := isBlankSeparator separators c.char
  let isEnd := isSeparator separators c.char
  if c.escaped then s.addChar c.char
  else if s.more = 0 then addLast separators s c.char
  else if s.afterBlank && isBlank then { s with current := [] }
  else if s.afterBlank && isEnd then { s with current := [], afterBlank := false }
  else
    let s := if s.afterBlank then { s with current := [], afterBlank := false } else s
    if !isEnd then s.addChar c.char
    else if s.current.isEmpty && isBlank then s
    else if s.more = 1 then
      { (s.addChar c.char) with more := 0, kept := some s.current.length, afterBlank := isBlank }
    else
      { s with more := s.more - 1, fields := s.fields ++ [s.current.reverse], current := [],
               afterBlank := isBlank }

def result (s : LineSplit) : List String :=
  let last := s.current.reverse
  let last := s.kept.elim last last.take
  (s.fields ++ (if last.isEmpty then [] else [last])).map String.ofList

end LineSplit

def lineFields (separators : String) (count : Nat) (line : List LineChar) : List String :=
  (line.foldl (LineSplit.add separators) { more := count }).result

/-- The arguments of `read` after its options: whether backslashes stand for themselves, and the
names, or what is wrong with an option. -/
def readArguments (raw : Bool) : List String → Except String (Bool × List String)
  | [] => .ok (raw, [])
  | argument :: rest =>
    match argument.toList with
    | ['-', '-'] => .ok (raw, rest)
    | '-' :: letter :: letters => letter :: letters |> readLetters raw rest
    | _ => .ok (raw, argument :: rest)
where
  readLetters (raw : Bool) (rest : List String) : List Char → Except String (Bool × List String)
    | [] => readArguments raw rest
    | 'r' :: letters => readLetters true rest letters
    | 'p' :: [] =>
      match rest with
      | [] => .error "No arg for -p option"
      | _ :: rest => readArguments raw rest
    | 'p' :: _ => readArguments raw rest
    | letter :: _ => .error ("Illegal option -" ++ String.ofList [letter])

def runRead (arguments : List String) : Activity Unit := do
  match readArguments false arguments with
  | .error text => abort text
  | .ok (raw, names) =>
    if names.isEmpty then abort "arg count"
    let contents := (← readLeft 0).toOption.getD []
    let (line, ended, rest) := takeLine raw false true contents
    if !contents.isEmpty then keepLeft 0 rest
    let fields := lineFields (← separators) names.length line
    for (name, index) in names.zipIdx do
      if !isName name.toList then abort (name ++ ": bad variable name")
      assign name ((fields[index]?).getD "")
    setStatus (if ended then 0 else 1)

end SymbolAtlas.Shell
