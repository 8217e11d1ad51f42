import SymbolAtlas.Text.Printable

namespace SymbolAtlas.Text

/-- The digits of `n` in base sixteen, lower case. -/
def hex (n : Nat) : List Char :=
  Nat.toDigits 16 n

def hexValue? (c : Char) : Option Nat :=
  if c.isDigit then some (c.toNat - '0'.toNat)
  else if 'a' ≤ c && c ≤ 'f' then some (c.toNat - 'a'.toNat + 10)
  else if 'A' ≤ c && c ≤ 'F' then some (c.toNat - 'A'.toNat + 10)
  else none

/-- The character with that code, if there is one. -/
def charOfCode? (code : Nat) : Option Char :=
  if h : code.isValidChar then some (.ofNatAux code h) else none

/-- A character inside quotes. The quote, the backslash and the characters that do not show are
escaped. -/
def escape (c : Char) : List Char :=
  if c = '"' then ['\\', '"']
  else if c = '\\' then ['\\', '\\']
  else if c = '\n' then ['\\', 'n']
  else if c = '\t' then ['\\', 't']
  else if c = '\r' then ['\\', 'r']
  else if c.toNat = 0 then ['\\', '0']
  else if isPrintable c then [c]
  else ['\\', 'u', '\x7b'] ++ hex c.toNat ++ ['\x7d']

def quote (s : String) : String :=
  String.ofList ('"' :: s.toList.flatMap escape ++ ['"'])

/-- A record with its fields in order; a record that hides some of them ends with two dots. -/
def describe (name : String) (fields : List (String × String)) (isPartial : Bool) : String :=
  let shown := fields.map fun (field, value) => field ++ ": " ++ value
  let shown := if isPartial then shown ++ [".."] else shown
  if shown.isEmpty then name
  else name ++ " \x7b " ++ ", ".intercalate shown ++ " \x7d"

/-- A list of shown items in brackets. -/
def describeList (items : List String) : String :=
  "[" ++ ", ".intercalate items ++ "]"

def describeBool (b : Bool) : String :=
  if b then "true" else "false"

end SymbolAtlas.Text
