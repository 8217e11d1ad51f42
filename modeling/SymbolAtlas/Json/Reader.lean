import SymbolAtlas.Json.Number

namespace SymbolAtlas.Json

def skipSpace (s : List Char) : List Char :=
  s.dropWhile fun c => c == ' ' || c == '\t' || c == '\n' || c == '\r'

/-- The code that four digits in base sixteen write. -/
def code? (a b c d : Char) : Option Nat :=
  [a, b, c, d].foldlM (fun n c => (Text.hexValue? c).map (n * 16 + ·)) 0

/-- The character whose code two codes write together. -/
def pairedChar? (high low : Nat) : Option Char :=
  if 0xD800 ≤ high && high < 0xDC00 && 0xDC00 ≤ low && low < 0xE000 then
    Text.charOfCode? (0x10000 + (high - 0xD800) * 0x400 + (low - 0xDC00))
  else none

/-- What a single character after a backslash stands for. -/
def escaped? : Char → Option Char
  | 'b' => some '\x08'
  | 't' => some '\t'
  | 'n' => some '\n'
  | 'f' => some '\x0c'
  | 'r' => some '\r'
  | '"' => some '"'
  | '\\' => some '\\'
  | '/' => some '/'
  | _ => none

/-- The rest of a text after its opening quote, in at most `steps` steps. -/
def textRest? : Nat → List Char → Option (List Char × List Char)
  | 0, _ => none
  | steps + 1, s => do
    let go (c : Char) (rest : List Char) := do
      let (more, rest) ← textRest? steps rest
      return (c :: more, rest)
    match s with
    | '"' :: rest => return ([], rest)
    | '\\' :: 'u' :: a :: b :: c :: d :: rest =>
      let code ← code? a b c d
      match Text.charOfCode? code, rest with
      | some c, _ => go c rest
      | none, '\\' :: 'u' :: a :: b :: c :: d :: rest =>
        go (← pairedChar? code (← code? a b c d)) rest
      | none, _ => none
    | '\\' :: c :: rest => go (← escaped? c) rest
    | c :: rest => if c.toNat < 0x20 then none else go c rest
    | [] => none

def text? (s : List Char) : Option (String × List Char) :=
  match s with
  | '"' :: rest => (textRest? (rest.length + 1) rest).map fun (t, rest) => (String.ofList t, rest)
  | _ => none

/-- The items of an array and the rest after its end, in at most `steps` steps. -/
def items? (read : List Char → Option (Json × List Char)) :
    Nat → List Char → Option (List Json × List Char)
  | 0, _ => none
  | steps + 1, s => do
    let (item, rest) ← read (skipSpace s)
    match skipSpace rest with
    | ',' :: rest =>
      let (items, rest) ← items? read steps rest
      return (item :: items, rest)
    | ']' :: rest => return ([item], rest)
    | _ => none

/-- The entries of an object and the rest after its end, in at most `steps` steps. -/
def entries? (read : List Char → Option (Json × List Char)) :
    Nat → List Char → Option (List (String × Json) × List Char)
  | 0, _ => none
  | steps + 1, s => do
    let (key, rest) ← text? (skipSpace s)
    let ':' :: rest := skipSpace rest | none
    let (value, rest) ← read (skipSpace rest)
    match skipSpace rest with
    | ',' :: rest =>
      let (entries, rest) ← entries? read steps rest
      return ((key, value) :: entries, rest)
    | '}' :: rest => return ([(key, value)], rest)
    | _ => none

/-- The entries by key, the last one for each. -/
def sortEntries (entries : List (String × Json)) : List (String × Json) :=
  let latest := entries.foldr (fun e kept => if kept.any (·.1 == e.1) then kept else e :: kept) []
  latest.mergeSort fun a b => decide (a.1 ≤ b.1)

/-- The value of a word. -/
def literal? (s : List Char) : Option (Json × List Char) :=
  [("null", null), ("true", bool true), ("false", bool false)].findSome? fun (word, value) =>
    if word.toList.isPrefixOf s then some (value, s.drop word.length) else none

/-- Reads a value at the front of a text in which arrays and objects nest at most `depth` deep. -/
def value? : Nat → List Char → Option (Json × List Char)
  | 0, _ => none
  | depth + 1, s =>
    match s with
    | '"' :: _ => (text? s).map fun (t, rest) => (text t, rest)
    | '[' :: rest =>
      match skipSpace rest with
      | ']' :: rest => some (array [], rest)
      | rest => (items? (value? depth) rest.length rest).map fun (items, rest) => (array items, rest)
    | '{' :: rest =>
      match skipSpace rest with
      | '}' :: rest => some (object [], rest)
      | rest => (entries? (value? depth) rest.length rest).map fun (entries, rest) =>
          (object (sortEntries entries), rest)
    | _ => (literal? s).or (number? s)

/-- Reads a text that is one value. -/
def parse? (s : String) : Option Json := do
  let (value, rest) ← value? (s.length + 1) (skipSpace s.toList)
  if (skipSpace rest).isEmpty then return value else none

/-- The value under a key of an object, null where there is none. -/
def field (j : Json) (key : String) : Json :=
  match j with
  | object entries => (entries.lookup key).getD null
  | _ => null

def items : Json → List Json
  | array items => items
  | _ => []

end SymbolAtlas.Json
