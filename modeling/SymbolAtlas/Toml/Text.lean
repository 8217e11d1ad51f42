import SymbolAtlas.Text.Blank
import SymbolAtlas.Text.Quoted

namespace SymbolAtlas.Toml

def isBlank (c : Char) : Bool :=
  c == ' ' || c == '\t'

/-- A character that may stand in a comment or in quotes: no control character but the tab. -/
def isShown (c : Char) : Bool :=
  c == '\t' || (' ' ≤ c && c ≠ '\x7f')

def skipBlanks (s : List Char) : List Char :=
  s.dropWhile isBlank

/-- The rest after a line ending. -/
def newline? : List Char → Option (List Char)
  | '\n' :: rest => some rest
  | '\r' :: '\n' :: rest => some rest
  | _ => none

/-- The rest after what may end a line: blanks, a comment and a line ending or the end of the text. -/
def lineEnd? (s : List Char) : Option (List Char) :=
  let s := match skipBlanks s with
    | '#' :: rest => rest.dropWhile isShown
    | s => s
  if s.isEmpty then some [] else newline? s

/-- Drops blanks, line endings and comments, as they may stand between the items of an array. Inside
a comment everything up to the line ending is dropped. -/
def skipFiller (inComment : Bool) : List Char → List Char
  | [] => []
  | c :: rest =>
    if c = '\n' then skipFiller false rest
    else if c = '\r' && rest.head? = some '\n' then skipFiller false rest
    else if inComment then
      if isShown c then skipFiller true rest else c :: rest
    else if isBlank c then skipFiller false rest
    else if c = '#' then skipFiller true rest
    else c :: rest

/-! ## Quoted text -/

/-- What a single character after a backslash stands for. -/
def escaped? : Char → Option Char
  | 'b' => some '\x08'
  | 't' => some '\t'
  | 'n' => some '\n'
  | 'f' => some '\x0c'
  | 'r' => some '\r'
  | '"' => some '"'
  | '\\' => some '\\'
  | _ => none

/-- What is being read inside double quotes: text, what follows a backslash, the code of a character
with the number of digits that are left, or the gap that a backslash at the end of a line opens. -/
inductive QuoteMode
  | plain
  | escape
  | code (left value : Nat)
  | gap (newline : Bool)

/-- Whether a gap goes on: blanks and line endings belong to it. -/
def gapGoesOn : List Char → Bool
  | [] => false
  | c :: rest => isBlank c || c == '\n' || (c == '\r' && rest.head? == some '\n')

/-- The mode in a gap that has seen a line ending, before `rest`. -/
def afterGap (rest : List Char) : QuoteMode :=
  if gapGoesOn rest then .gap true else .plain

/-- Puts a character before the text that was read after it. -/
def consRead (c : Char) (r : Option (List Char × List Char)) : Option (List Char × List Char) :=
  r.map fun (text, rest) => (c :: text, rest)

/-- The rest after two more of the quotes `q`, and the quotes right after them that still belong to
the text: up to two may stand before the three that end it. -/
def closing? (q : Char) : List Char → Option (List Char × List Char)
  | a :: b :: rest =>
    if a = q && b = q then
      match rest with
      | c :: d :: rest' =>
        if c = q && d = q then some ([q, q], rest')
        else if c = q then some ([q], d :: rest')
        else some ([], rest)
      | [c] => if c = q then some ([q], []) else some ([], rest)
      | [] => some ([], [])
    else none
  | _ => none

/-- Text in double quotes, after the opening ones. With `lines`, three quotes end it and it may hold
line endings, each of which is read as one newline. -/
def quotedText (lines : Bool) : QuoteMode → List Char → Option (List Char × List Char)
  | _, [] => none
  | .plain, c :: rest =>
    if c = '"' then
      if lines then
        match closing? '"' rest with
        | some end' => some end'
        | none => consRead c (quotedText lines .plain rest)
      else some ([], rest)
    else if c = '\\' then quotedText lines .escape rest
    else if isShown c then consRead c (quotedText lines .plain rest)
    else if lines && c = '\n' then consRead c (quotedText lines .plain rest)
    else if lines && c = '\r' && rest.head? = some '\n' then quotedText lines .plain rest
    else none
  | .escape, c :: rest =>
    if c = 'u' then quotedText lines (.code 4 0) rest
    else if c = 'U' then quotedText lines (.code 8 0) rest
    else match escaped? c with
      | some e => consRead e (quotedText lines .plain rest)
      | none =>
        if !lines then none
        else if c = '\n' then quotedText lines (afterGap rest) rest
        else if gapGoesOn (c :: rest) then quotedText lines (.gap false) rest
        else none
  | .gap newline, c :: rest =>
    if c = '\n' then quotedText lines (afterGap rest) rest
    else if gapGoesOn (c :: rest) then
      quotedText lines (if newline then afterGap rest else .gap false) rest
    else none
  | .code left value, c :: rest =>
    match Text.hexValue? c with
    | none => none
    | some digit =>
      let value := value * 16 + digit
      if left = 1 then
        match Text.charOfCode? value with
        | some e => consRead e (quotedText lines .plain rest)
        | none => none
      else quotedText lines (.code (left - 1) value) rest

/-- Text in single quotes, after the opening ones. Nothing is escaped in it. -/
def literalText (lines : Bool) : List Char → Option (List Char × List Char)
  | [] => none
  | c :: rest =>
    if c = '\'' then
      if lines then
        match closing? '\'' rest with
        | some end' => some end'
        | none => consRead c (literalText lines rest)
      else some ([], rest)
    else if isShown c then consRead c (literalText lines rest)
    else if lines && c = '\n' then consRead c (literalText lines rest)
    else if lines && c = '\r' && rest.head? = some '\n' then literalText lines rest
    else none

/-- Drops the line ending right after three opening quotes. -/
def skipFirstNewline (s : List Char) : List Char :=
  (newline? s).getD s

/-- Any of the four kinds of quoted text. -/
def quoted? : List Char → Option (List Char × List Char)
  | '"' :: '"' :: '"' :: rest => quotedText true .plain (skipFirstNewline rest)
  | '"' :: rest => quotedText false .plain rest
  | '\'' :: '\'' :: '\'' :: rest => literalText true (skipFirstNewline rest)
  | '\'' :: rest => literalText false rest
  | _ => none

end SymbolAtlas.Toml
