import SymbolAtlas.Shell.Script

namespace SymbolAtlas.Shell

/-- The meaning of an alias in the text that is left. -/
structure Span where
  name : String
  /-- How much of the text is left where the meaning ends. -/
  left : Nat
  /-- Whether the word after it may be an alias as well. -/
  endsBlank : Bool

/-- The text that is left of a script, and its line. Lines that a document has taken out below the
current line are still owed. -/
structure Cursor where
  rest : List Char
  line : Nat := 1
  owed : Nat := 0
  /-- The words that stand for other text where a command begins. -/
  aliases : List (String × String) := []
  spans : List Span := []
  /-- How much text is left before a word that is no reserved one in any case. -/
  ordinary : Option Nat := none
  /-- Whether the text is that of a document, in which quotes need not end. -/
  inDocument : Bool := false
  deriving Inhabited

/-- What is wrong with a script, and the line where that shows. -/
structure SyntaxFault where
  line : Nat
  what : String
  /-- Whether the text has ended there. -/
  atEnd : Bool := false
  /-- The text from a word that should not stand there. What is wrong inside the word goes first. -/
  word : Option Cursor := none
  deriving Inhabited

abbrev Reader := StateT Cursor (Except SyntaxFault)

namespace Reader

def fail {α : Type} (what : String) : Reader α := do
  let c ← get
  throw { line := c.line, what, atEnd := c.rest.isEmpty }

def skip (count : Nat) : Reader Unit :=
  modify fun c =>
    let lines := (c.rest.take count).count '\n'
    if lines = 0 then { c with rest := c.rest.drop count }
    else { c with rest := c.rest.drop count, line := c.line + lines + c.owed, owed := 0 }

/-- Runs a reader on a text of its own, which begins at a line. An alias in whose meaning the text
stands is none in it. -/
def within {α : Type} (line : Nat) (text : List Char) (reader : Reader α) : Reader α := do
  let outer ← get
  let around := outer.spans.filter fun span => span.left < outer.rest.length
  let spans : List Span := around.map fun span => { span with left := 0 }
  set { outer with rest := text, line, owed := 0, spans, ordinary := none, inDocument := false }
  let a ← reader
  set outer
  return a

/-- Runs a reader on commands that stand in another text. -/
def onCommands {α : Type} (reader : Reader α) : Reader α := do
  let inDocument := (← get).inDocument
  modify fun c => { c with inDocument := false }
  let a ← reader
  modify fun c => { c with inDocument }
  return a

/-- Fails where a text has ended between quotes or braces. -/
def failOpen {α : Type} : Reader α := do
  if (← get).inDocument then fail "Syntax error: Missing '\x7d'"
  else fail "Syntax error: Unterminated quoted string"

end Reader

end SymbolAtlas.Shell
