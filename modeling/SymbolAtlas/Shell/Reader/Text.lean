import SymbolAtlas.Shell.Reader.Token

namespace SymbolAtlas.Shell

open Reader

def before (quoted : Bool) (s : List Char) (pieces : List Piece) : List Piece :=
  if s.isEmpty then pieces else .text quoted s :: pieces

/-- Pieces between double quotes. They make up a word even if they are empty, unless all parameters
stand alone between the quotes. -/
def quotedWhole (inner : List Piece) : List Piece :=
  match inner with
  | [.parameter _ "@" .value] => inner
  | _ => .text true [] :: inner ++ [.text true []]

/-- A piece of a pattern in a document, where quotes hold for what is written only. -/
def bare : Piece → Piece
  | .parameter _ name use => .parameter false name use
  | .output _ body => .output false body
  | .sum _ expression => .sum false expression
  | piece => piece

/-- The text inside single quotes. -/
def literal : Reader (List Char) := do
  let s := (← get).rest
  let text := s.takeWhile (· != '\'')
  if text.length = s.length then
    skip s.length
    failOpen
  skip (text.length + 1)
  return text

/-- Splits off the text up to the two brackets that close an arithmetic expression. -/
def splitSum (depth : Nat) : List Char → Option (List Char × List Char)
  | [] => none
  | '(' :: rest => (splitSum (depth + 1) rest).map fun (text, rest) => ('(' :: text, rest)
  | ')' :: rest =>
    if depth = 0 then
      match rest with
      | ')' :: rest => some ([], rest)
      | _ => (splitSum depth rest).map fun (text, rest) => (')' :: text, rest)
    else (splitSum (depth - 1) rest).map fun (text, rest) => (')' :: text, rest)
  | c :: rest => (splitSum depth rest).map fun (text, rest) => (c :: text, rest)

/-- Splits off the text up to the closing backquote. A backslash takes away the meaning of another
backslash, a dollar sign and a backquote. -/
def splitBackquoted : List Char → Option (List Char × List Char)
  | [] => none
  | '\\' :: c :: rest =>
    (splitBackquoted rest).map fun (text, rest) =>
      (if c = '\\' || c = '$' || c = Char.ofNat 96 then (c :: text, rest)
       else ('\\' :: c :: text, rest))
  | c :: rest =>
    if c = Char.ofNat 96 then some ([], rest)
    else (splitBackquoted rest).map fun (text, rest) => (c :: text, rest)

def parameterName (s : List Char) : List Char :=
  match s with
  | c :: _ =>
    if isNameStart c then s.takeWhile isNameChar
    else if ['@', '*', '#', '?', '-', '$', '!'].contains c || c.isDigit then [c]
    else []
  | [] => []

/-- The pieces of a text with a tilde at its front. It stands for a home directory if nothing or a
slash follows. `isWhole` tells whether the word ends with the text. -/
def homePieces (isWhole : Bool) (s : List Char) : Word :=
  match s with
  | '~' :: rest =>
    let user := rest.takeWhile (· != '/')
    let path := rest.drop user.length
    if path.isEmpty && !isWhole then before false s []
    else if user.isEmpty then .home :: before false path []
    else if user = "root".toList then .text true "/root".toList :: before false path []
    else before false s []
  | _ => before false s []

/-- A word whose tilde at the front is looked at. -/
def withHome (word : Word) : Word :=
  match word with
  | .text false s :: rest => homePieces rest.isEmpty s ++ rest
  | _ => word

/-- A value, in which a tilde counts after a colon as well. -/
def withHomes (word : Word) : Word :=
  match word with
  | .text false s :: rest =>
    let parts := s.splitOn ':'
    let pieces := parts.zipIdx.map fun (part, index) =>
      homePieces (rest.isEmpty || index + 1 < parts.length) part
    pieces.intersperse [.text false [':']] |>.flatten |> (· ++ rest)
  | _ => word

/-- Splits a word into a variable's name and its value, if it has that form. -/
def assignment? (word : Word) : Option (String × Word) :=
  match word with
  | .text false s :: rest =>
    let name := s.takeWhile (· != '=')
    if name.length < s.length && isName name then
      some (String.ofList name, withHomes (before false (s.drop (name.length + 1)) rest))
    else none
  | _ => none

/-- The name that a word is, if it is one without quotes and expansions. -/
def plainName? (word : Word) : Option String :=
  match word with
  | [.text false name] => if isName name then some (String.ofList name) else none
  | _ => none

end SymbolAtlas.Shell
