import SymbolAtlas.Shell.Reader.Cursor

namespace SymbolAtlas.Shell

open Reader

def endsWord (c : Char) : Bool :=
  [' ', '\t', '\n', ';', '&', '|', '<', '>', '(', ')'].contains c

def isSpecial (c : Char) : Bool :=
  ['\\', '\'', '"', '$', Char.ofNat 96].contains c

/-- The characters up to a special one or a closing brace. -/
def ordinaryRun (special : Char → Bool) (s : List Char) : List Char :=
  s.takeWhile fun c => c != '\x7d' && !special c

def reservedWords : List String :=
  ["!", "\x7b", "\x7d", "case", "do", "done", "elif", "else", "esac", "fi", "for", "if", "in", "then",
    "until", "while"]

def closingWords : List String :=
  ["\x7d", "do", "done", "elif", "else", "esac", "fi", "then"]

/-- The text after blanks and comments, and after line ends if `newlines` says so, with its line. -/
def afterBlanks (newlines inComment : Bool) (line owed : Nat) : List Char → List Char × Nat × Nat
  | [] => ([], line, owed)
  | '\n' :: rest =>
    if newlines then afterBlanks newlines false (line + 1 + owed) 0 rest
    else ('\n' :: rest, line, owed)
  | '\\' :: '\n' :: rest =>
    if inComment then afterBlanks newlines inComment line owed ('\n' :: rest)
    else afterBlanks newlines false (line + 1 + owed) 0 rest
  | c :: rest =>
    if inComment || c = ' ' || c = '\t' then afterBlanks newlines inComment line owed rest
    else if c = '#' then afterBlanks newlines true line owed rest
    else (c :: rest, line, owed)

/-- Goes past blanks and comments, and past line ends if `newlines` says so. -/
def Cursor.skipBlanks (c : Cursor) (newlines : Bool) : Cursor :=
  let (rest, line, owed) := afterBlanks newlines false c.line c.owed c.rest
  { c with rest, line, owed }

def skipBlanks : Reader Unit :=
  modify (·.skipBlanks false)

def skipLines : Reader Unit :=
  modify (·.skipBlanks true)

/-- The word at the front if it has no quotes and expansions. -/
def plainWord (s : List Char) : String :=
  let word := s.takeWhile fun c => !endsWord c && !isSpecial c
  match s.drop word.length with
  | c :: _ => if isSpecial c then "" else String.ofList word
  | [] => String.ofList word

/-- The alias that the word at the front is. Inside its own meaning a word is none, and a reserved
word is none if `reserved` says so. -/
def Cursor.alias? (c : Cursor) (reserved : Bool) : Option (String × String) :=
  if c.aliases.isEmpty then none
  else
    let word := plainWord c.rest
    let inUse := c.spans.any fun span => span.name == word && span.left < c.rest.length
    if word.isEmpty || inUse || (reserved && reservedWords.contains word) then none
    else (c.aliases.lookup word).map (word, ·)

/-- Puts the meanings of aliases in the place of the word at the front, and goes past the blanks
before what it means. Each alias can be replaced once at a place, which bounds the steps. -/
def expandAliasesIn (newlines reserved : Bool) : Nat → Cursor → Cursor
  | 0, c => c
  | steps + 1, c =>
    match c.alias? reserved with
    | none => c
    | some (word, meaning) =>
      let rest := c.rest.drop word.length
      let span : Span := { name := word, left := rest.length,
                           endsBlank := meaning.endsWith " " || meaning.endsWith "\t" }
      let c := { c with rest := meaning.toList ++ rest,
                        spans := if meaning.isEmpty then c.spans else span :: c.spans }
      expandAliasesIn newlines reserved steps (c.skipBlanks newlines)

/-- Puts the meaning of an alias in the place of the word at the front. -/
def expandAliases (newlines reserved : Bool) : Reader Unit :=
  modify fun c => expandAliasesIn newlines reserved (c.aliases.length * 4 + 4) c

/-- Goes past blanks to the word after another one, which can be an alias if the meaning of one ends
with a blank before it. -/
def skipToWord (mayBeAlias : Bool) : Reader Unit := do
  let before := (← get).rest.length
  skipBlanks
  let c ← get
  let after := c.rest.length
  let passed := c.spans.any fun span => span.endsBlank && after ≤ span.left && span.left < before
  if mayBeAlias || passed then expandAliases false false

def Cursor.reserved (c : Cursor) : String :=
  if c.ordinary = some c.rest.length then "" else plainWord c.rest

/-- The stream that a redirection is for, as written before its sign. -/
def streamBefore (s : List Char) : Option Nat × List Char :=
  match s with
  | c :: rest =>
    match rest with
    | d :: _ =>
      if c.isDigit && (d == '<' || d == '>') then (some (c.toNat - '0'.toNat), rest) else (none, s)
    | [] => (none, s)
  | [] => (none, s)

def signLength (s : List Char) : Nat :=
  let (stream, sign) := streamBefore s
  let signs := ["<<-", "<<", "<&", "<>", ">>", ">&", ">|", ";;", "&&", "||"]
  (if stream.isSome then 1 else 0) +
    ((signs.find? (·.toList.isPrefixOf sign)).map (·.length)).getD 1

/-- How what stands at the front is named when it should not stand there. -/
def Cursor.tokenName (cursor : Cursor) : String :=
  match cursor.rest with
  | [] => "end of file"
  | '\n' :: _ => "newline"
  | ';' :: ';' :: _ => "\";;\""
  | '&' :: '&' :: _ => "\"&&\""
  | '|' :: '|' :: _ => "\"||\""
  | c :: _ =>
    if c = '<' || c = '>' || (streamBefore cursor.rest).1.isSome then "redirection"
    else if [';', '&', '|', '(', ')'].contains c then String.ofList ['"', c, '"']
    else if reservedWords.contains cursor.reserved then "\"" ++ cursor.reserved ++ "\""
    else "word"

/-- Fails after what stands at the front, which is a line end or something in a line. -/
def failAfter {α : Type} (what : String) : Reader α := do
  let c ← get
  let line := if c.rest.head? = some '\n' then c.line + 1 else c.line
  throw { line, what, atEnd := c.rest.isEmpty,
          word := if c.tokenName = "word" then some c else none }

/-- Refuses what stands at the front. It counts as a reserved word if `mayBeReserved` says so. -/
def refuse {α : Type} (expected : Option String) (mayBeReserved : Bool := true) : Reader α := do
  let c ← get
  let c := if mayBeReserved then c else { c with ordinary := some c.rest.length }
  set c
  let expecting := expected.elim "" (" (expecting " ++ · ++ ")")
  failAfter ("Syntax error: " ++ c.tokenName ++ " unexpected" ++ expecting)

def expect (sign : String) : Reader Unit := do
  if sign.toList.isPrefixOf (← get).rest then skip sign.length
  else refuse (some ("\"" ++ sign ++ "\""))

/-- Goes to where a command may begin. -/
def skipToCommand : Reader Unit := do
  skipLines
  expandAliases true true

/-- Goes past a reserved word that has to come next. -/
def expectWord (word : String) : Reader Unit := do
  skipToCommand
  if (← get).reserved = word then skip word.length else refuse (some ("\"" ++ word ++ "\""))

end SymbolAtlas.Shell
