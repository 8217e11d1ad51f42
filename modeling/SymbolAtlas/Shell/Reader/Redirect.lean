import SymbolAtlas.Shell.Reader.Word

namespace SymbolAtlas.Shell

open Reader

/-! ## Documents -/

/-- What quotes a document's end word, and the word. -/
def plainText (word : Word) : Bool × List Char :=
  word.foldl (fun (quoted, text) piece => match piece with
    | .text q s => (quoted || q, text ++ s)
    | _ => (quoted, text)) (false, [])

def splitLine (s : List Char) : List Char × List Char :=
  (s.takeWhile (· != '\n'), (s.dropWhile (· != '\n')).drop 1)

/-- Whether text stands between double quotes, given the characters that close what it stands in. -/
def isDoubleQuoted : List Char → Bool
  | '\x7d' :: closers => isDoubleQuoted closers
  | closer :: _ => closer == '"'
  | [] => false

/-- How many characters stand before the line end that ends a list of commands: one outside of quotes,
substitutions and comments. `closers` close what the text stands in, and `fresh` tells whether a
comment can begin. A bracket that closes nothing leads out of what is known; from there on any line
end counts. -/
def commandsLength : List Char → Bool → List Char → Nat
  | _, _, [] => 0
  | '\'' :: closers, _, c :: rest =>
    commandsLength (if c = '\'' then closers else '\'' :: closers) false rest + 1
  | '#' :: closers, _, c :: rest =>
    if c ≠ '\n' then commandsLength ('#' :: closers) false rest + 1
    else if closers.isEmpty then 0
    else commandsLength closers true rest + 1
  | closers, fresh, c :: rest =>
    if closers.head? = some c then commandsLength closers.tail false rest + 1
    else if c = '\n' && closers.isEmpty then 0
    else if c = ')' && closers.isEmpty then (rest.takeWhile (· != '\n')).length + 1
    else match c, rest with
      | '\\', _ :: rest => commandsLength closers false rest + 2
      | '$', '(' :: rest => commandsLength (')' :: closers) true rest + 2
      | '$', '\x7b' :: rest => commandsLength ('\x7d' :: closers) false rest + 2
      | _, rest =>
        if c = '"' || c = Char.ofNat 96 then commandsLength (c :: closers) true rest + 1
        else if isDoubleQuoted closers then commandsLength closers false rest + 1
        else if c = '\'' || c = '(' || (c = '#' && fresh) then
          commandsLength ((if c = '(' then ')' else c) :: closers) true rest + 1
        else commandsLength closers (endsWord c) rest + 1

/-- Splits a text at the line end that ends its first list of commands. -/
def splitCommands (s : List Char) : List Char × List Char :=
  s.splitAt (commandsLength [] false s)

/-- The lines of a document up to the line that ends it, and the text after that, in at most `steps`
lines. The last line of the script need not be ended. -/
def documentLines (stripTabs : Bool) (ending : List Char) : Nat → List Char → List Char × List Char
  | 0, s => ([], s)
  | _, [] => ([], [])
  | steps + 1, s =>
    let (line, rest) := splitLine s
    let isEnded := s.contains '\n'
    let line := if stripTabs then line.dropWhile (· == '\t') else line
    if line = ending then ([], rest)
    else
      let (more, rest) := documentLines stripTabs ending steps rest
      (line ++ (if isEnded then ['\n'] else []) ++ more, rest)

/-- Takes the lines of a document out of the text after the current commands, and tells the number of
the first one. -/
def takeDocument (stripTabs : Bool) (ending : List Char) : Reader (Nat × List Char) := do
  let c ← get
  let (line, after) := splitCommands c.rest
  let below := after.drop 1
  let (body, rest) := documentLines stripTabs ending (below.length + 1) below
  let spans : List Span := c.spans.map fun span =>
    { span with left := span.left - (below.length - rest.length) }
  set { c with rest := line ++ after.take 1 ++ rest,
               owed := c.owed + (below.count '\n' - rest.count '\n'), spans }
  return (c.line + line.count '\n' + 1 + c.owed, body)

/-! ## Redirections -/

variable (commands : Reader (List Statement))

/-- The document that ends with a line of that word. Its text is expanded unless the word is
quoted. -/
def document (fuel stream : Nat) (stripTabs : Bool) (ending : Word) : Reader Redirect := do
  let (quoted, text) := plainText ending
  let (first, body) ← takeDocument stripTabs text
  if quoted then return .document stream [.text true body]
  let isEnded := body.getLast? = some '\n'
  let inside : Reader Word := do
    modify fun c => { c with inDocument := true }
    quotedPieces commands fuel none []
  let word ← tryCatch (within first body inside) fun fault =>
    let line := if fault.atEnd && isEnded then fault.line + 1 else fault.line
    throw { fault with line, atEnd := fault.atEnd && !isEnded }
  return .document stream word

def redirect? (fuel : Nat) : Reader (Option Redirect) := do
  skipBlanks
  let start := (← get).rest
  let (stream, s) := streamBefore start
  let digits := start.length - s.length
  let target (skipped : Nat) : Reader Word := do
    skip (digits + skipped)
    skipBlanks
    let word ← wordPieces commands fuel
    if word.isEmpty then refuse none
    return withHome word
  match s with
  | '<' :: '<' :: '-' :: _ => some <$> document commands fuel (stream.getD 0) true (← target 3)
  | '<' :: '<' :: _ => some <$> document commands fuel (stream.getD 0) false (← target 2)
  | '<' :: '&' :: _ => return some (.copy (stream.getD 0) (← target 2))
  | '<' :: '>' :: _ => return some (.file (stream.getD 0) .both (← target 2))
  | '<' :: _ => return some (.file (stream.getD 0) .read (← target 1))
  | '>' :: '>' :: _ => return some (.file (stream.getD 1) .append (← target 2))
  | '>' :: '&' :: _ => return some (.copy (stream.getD 1) (← target 2))
  | '>' :: '|' :: _ => return some (.file (stream.getD 1) .replaceAny (← target 2))
  | '>' :: _ => return some (.file (stream.getD 1) .replace (← target 1))
  | _ => return none

def redirects : Nat → Reader (List Redirect)
  | 0 => refuse none
  | fuel + 1 => do
    match ← redirect? commands fuel with
    | some first => return first :: (← redirects fuel)
    | none => return []

end SymbolAtlas.Shell
