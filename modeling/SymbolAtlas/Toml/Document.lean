import SymbolAtlas.Toml.Number
import SymbolAtlas.Toml.Table

/-!
# TOML documents

A document is a sequence of lines: a header that opens a table, or a key with its value. A document
that breaks a rule says nothing at all.
-/

namespace SymbolAtlas.Toml

/-- How deep arrays and tables in braces may be nested, and the number of steps a dotted key may
have. -/
def nestingLimit : Nat :=
  79

/-! ## Keys -/

def isBareChar (c : Char) : Bool :=
  c.isAlphanum || c == '-' || c == '_'

/-- One step of a key: quoted in one line, or bare. -/
def keyStep? (s : List Char) : Option (String × List Char) :=
  match s with
  | '"' :: rest => (quotedText false .plain rest).map fun (text, rest) => (String.ofList text, rest)
  | '\'' :: rest => (literalText false rest).map fun (text, rest) => (String.ofList text, rest)
  | _ =>
    let bare := s.takeWhile isBareChar
    if bare.isEmpty then none else some (String.ofList bare, s.dropWhile isBareChar)

/-- The steps of a dotted key, at most `count` of them. Blanks may stand around each. -/
def keySteps? : Nat → List Char → Option (List String × List Char)
  | 0, _ => none
  | count + 1, s => do
    let (step, rest) ← keyStep? (skipBlanks s)
    match skipBlanks rest with
    | '.' :: rest =>
      let (steps, rest) ← keySteps? count rest
      return (step :: steps, rest)
    | rest => return ([step], rest)

/-- A key: its steps but the last one, the last one, and the rest. -/
def key? (s : List Char) : Option (List String × String × List Char) := do
  let (steps, rest) ← keySteps? nestingLimit s
  return (steps.dropLast, ← steps.getLast?, rest)

/-! ## Values -/

/-- Reads a value of a word, in quotes or in digits. -/
def scalar? (s : List Char) : Option (Value × List Char) :=
  match s with
  | 't' :: 'r' :: 'u' :: 'e' :: rest => some (.bool true, rest)
  | 'f' :: 'a' :: 'l' :: 's' :: 'e' :: rest => some (.bool false, rest)
  | c :: _ =>
    if c = '"' || c = '\'' then
      (quoted? s).map fun (text, rest) => (.text (String.ofList text), rest)
    else number? s
  | [] => none

/-- The items of an array and the rest after its end, in at most `steps` steps. -/
def items? (read : List Char → Option (Value × List Char)) :
    Nat → List Char → Option (List Value × List Char)
  | 0, _ => none
  | steps + 1, s => do
    match skipFiller false s with
    | ']' :: rest => return ([], rest)
    | s =>
      let (item, rest) ← read s
      match skipFiller false rest with
      | ',' :: rest =>
        let (items, rest) ← items? read steps rest
        return (item :: items, rest)
      | ']' :: rest => return ([item], rest)
      | _ => none

/-- A key with its value. -/
def pair? (read : List Char → Option (Value × List Char)) (t : Draft) (s : List Char) :
    Option (Draft × List Char) := do
  let (path, key, rest) ← key? s
  let rest ← char? '=' rest
  let (v, rest) ← read (skipBlanks rest)
  return (← t.setValue path key v, rest)

/-- The pairs of a table in braces and the rest after its end, in at most `steps` steps. A comma
stands between two pairs and not after the last one. -/
def pairs? (read : List Char → Option (Value × List Char)) :
    Nat → Draft → List Char → Option (Draft × List Char)
  | 0, _, _ => none
  | steps + 1, t, s => do
    let (t, rest) ← pair? read t s
    match skipBlanks rest with
    | ',' :: rest => pairs? read steps t rest
    | '}' :: rest => return (t, rest)
    | _ => none

/-- Reads a value in which arrays and tables nest at most `depth` deep. -/
def value? : Nat → List Char → Option (Value × List Char)
  | 0, s => scalar? s
  | depth + 1, s =>
    match s with
    | '[' :: rest =>
      (items? (value? depth) (rest.length + 1) rest).map fun (items, rest) => (.array items, rest)
    | '{' :: rest =>
      match skipBlanks rest with
      | '}' :: rest => some (.table [], rest)
      | _ => (pairs? (value? depth) (rest.length + 1) {} rest).map fun (t, rest) =>
          (.table t.values, rest)
    | _ => scalar? s

/-! ## Lines -/

/-- A document under construction: its root table, and the path of the table that is open. -/
structure Reading where
  root : Draft := {}
  path : List String := []

/-- The header of a table, after its first bracket. -/
def header? (r : Reading) (s : List Char) : Option (Reading × List Char) := do
  let (isList, s) := match s with
    | '[' :: rest => (true, rest)
    | s => (false, s)
  let (path, key, rest) ← key? s
  let rest ← char? ']' rest
  let rest ← if isList then char? ']' rest else some rest
  let rest ← lineEnd? rest
  let root ← r.root.change false (if isList then Draft.addTable key else Draft.stateTable key) path
  return (⟨root, path ++ [key]⟩, rest)

/-- A key with its value, up to the end of the line. -/
def line? (r : Reading) (s : List Char) : Option (Reading × List Char) := do
  let (path, key, rest) ← key? s
  let rest ← char? '=' rest
  let (v, rest) ← value? nestingLimit (skipBlanks rest)
  let rest ← lineEnd? rest
  let root ← r.root.change false (Draft.setValue path key v) r.path
  return ({ r with root }, rest)

/-- Reads the rest of a document in at most `steps` lines. -/
def lines? : Nat → Reading → List Char → Option Reading
  | 0, _, _ => none
  | steps + 1, r, s =>
    match skipBlanks s with
    | [] => some r
    | c :: rest => do
      if c = '[' then
        let (r, rest) ← header? r rest
        lines? steps r rest
      else if c = '#' || c = '\n' || c = '\r' then
        lines? steps r (← lineEnd? (c :: rest))
      else
        let (r, rest) ← line? r (c :: rest)
        lines? steps r rest

/-- The entries of a document. Every line takes a character at least, so the length of the text
bounds their number. A byte order mark at the front is no part of the text. -/
def parse? (text : String) : Option (List (String × Value)) :=
  let s := match text.toList with
    | '\ufeff' :: rest => rest
    | s => s
  (lines? (s.length + 1) {} s).map fun r => r.root.values

end SymbolAtlas.Toml
