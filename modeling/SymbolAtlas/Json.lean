import SymbolAtlas.Text.Quoted

namespace SymbolAtlas

/-- A JSON value. Numbers are kept as they are written, entries in the order in which they are
printed. -/
inductive Json
  | null
  | bool (b : Bool)
  | number (written : String)
  | text (s : String)
  | array (items : List Json)
  | object (entries : List (String × Json))
  deriving Inhabited

namespace Json

def ofNat (n : Nat) : Json :=
  number (toString n)

def ofTexts (items : List String) : Json :=
  array (items.map text)

/-- A text, or null where there is none. -/
def ofText? : Option String → Json
  | some s => text s
  | none => null

/-! ## Printing -/

/-- The four hexadecimal digits of a code below 256. -/
def fourDigits (n : Nat) : List Char :=
  let digits := Text.hex n
  List.replicate (4 - digits.length) '0' ++ digits

/-- A character inside a JSON text. -/
def escape (c : Char) : List Char :=
  if c = '"' then ['\\', '"']
  else if c = '\\' then ['\\', '\\']
  else if c = '\n' then ['\\', 'n']
  else if c = '\t' then ['\\', 't']
  else if c = '\r' then ['\\', 'r']
  else if c = '\x08' then ['\\', 'b']
  else if c = '\x0c' then ['\\', 'f']
  else if c.toNat < 0x20 then ['\\', 'u'] ++ fourDigits c.toNat
  else [c]

def quote (s : String) : String :=
  String.ofList ('"' :: s.toList.flatMap escape ++ ['"'])

/-- The start of a line that is nested `depth` deep. -/
def indent (depth : Nat) : String :=
  "\n" ++ String.ofList (List.replicate (2 * depth) ' ')

/-- The lines of an array or an object between its brackets. -/
def block (first last : String) (depth : Nat) (lines : List String) : String :=
  if lines.isEmpty then first ++ last
  else
    let inner := indent (depth + 1)
    first ++ inner ++ ("," ++ inner).intercalate lines ++ indent depth ++ last

mutual

def renderAt (depth : Nat) : Json → String
  | null => "null"
  | bool b => Text.describeBool b
  | number written => written
  | text s => quote s
  | array items => block "[" "]" depth (renderItems (depth + 1) items)
  | object entries => block "\x7b" "\x7d" depth (renderEntries (depth + 1) entries)

def renderItems (depth : Nat) : List Json → List String
  | [] => []
  | item :: rest => renderAt depth item :: renderItems depth rest

def renderEntries (depth : Nat) : List (String × Json) → List String
  | [] => []
  | (key, value) :: rest =>
    (quote key ++ ": " ++ renderAt depth value) :: renderEntries depth rest

end

def render (j : Json) : String :=
  renderAt 0 j

end Json

end SymbolAtlas
