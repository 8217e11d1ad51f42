import SymbolAtlas.Shell.Reader.Redirect

namespace SymbolAtlas.Shell

open Reader

/-- The command that a group in braces is: a group apart that stands alone in it, or a group. -/
def groupOf (body : List Statement) : Command :=
  match body with
  | [.pipeline .always false [.placed _ (.apart inner)]] => .apart inner
  | [.pipeline .always false [.placed _ (.redirected (.apart inner) redirects)]] =>
    .redirected (.apart inner) redirects
  | _ => .group body

/-- A command with the redirections after it. A group apart has the outermost ones only. -/
def redirectedBy (redirects : List Redirect) (command : Command) : Command :=
  if redirects.isEmpty then command
  else match command with
    | .redirected (.apart body) _ => .redirected (.apart body) redirects
    | _ => .redirected command redirects

mutual

/-- The rest of a simple command, whose line is the one where its first word ends. -/
def simpleRest : Nat → Nat → List (String × Word) → List Word → List Redirect → Reader Command
  | 0, _, _, _, _ => refuse none
  | fuel + 1, line, assignments, words, redirects => do
    skipToWord (words.isEmpty && !(assignments.isEmpty && redirects.isEmpty))
    match ← redirect? (statements fuel false) fuel with
    | some r => simpleRest fuel line assignments words (redirects ++ [r])
    | none =>
      let isFirst := assignments.isEmpty && words.isEmpty && redirects.isEmpty
      let word ← pieces (statements fuel false) fuel false []
      if word.isEmpty then
        if isFirst then refuse none
        if words.length = 1 && assignments.isEmpty && redirects.isEmpty &&
            (← get).rest.head? = some '(' then
          skip 1
          skipBlanks
          if (← get).rest.head? ≠ some ')' then refuse (some "\")\"") false
          skip 1
          match (plainName? (words.headD [])).filter (!specialCommands.contains ·) with
          | none => fail "Syntax error: Bad function name"
          | some name =>
            skipLines
            return .define name (← command fuel)
        return .simple line assignments words redirects
      let here := (← get).line
      let line := if isFirst then here else line
      match assignment? word with
      | some (name, value) =>
        if words.isEmpty then
          simpleRest fuel line (assignments ++ [(name, value)]) words redirects
        else simpleRest fuel line assignments (words ++ [word]) redirects
      | none => simpleRest fuel line assignments (words ++ [withHome word]) redirects

/-- A command with the redirections after it. -/
def command : Nat → Reader Command
  | 0 => refuse none
  | fuel + 1 => do
    skipBlanks
    expandAliases true true
    let c ← get
    let compound (body : Reader Command) : Reader Command := do
      let command ← body
      let redirects ← redirects (statements fuel false) fuel
      if !redirects.isEmpty then modify fun c => { c with ordinary := some c.rest.length }
      return .placed c.line (redirectedBy redirects command)
    if c.rest.head? = some '(' then
      skip 1
      compound do
        let body ← statements fuel true
        expect ")"
        return .apart body
    else
      let word := plainWord c.rest
      match word with
      | "\x7b" => skip 1; compound do
        let body ← statements fuel true
        expectWord "\x7d"
        return groupOf body
      | "if" => skip 2; compound (conditional fuel)
      | "while" => skip 5; compound (repetition fuel false)
      | "until" => skip 5; compound (repetition fuel true)
      | "for" => skip 3; compound (enumeration fuel)
      | "case" => skip 4; compound (selection fuel)
      | _ =>
        if reservedWords.contains word then refuse none
        simpleRest fuel c.line [] [] []

/-- What follows the word that begins a condition. -/
def conditional : Nat → Reader Command
  | 0 => refuse none
  | fuel + 1 => do
    let condition ← statements fuel true
    expectWord "then"
    let body ← statements fuel true
    skipToCommand
    match (← get).reserved with
    | "elif" =>
      skip 4
      match ← conditional fuel with
      | .choice branches otherwise => return .choice ((condition, body) :: branches) otherwise
      | other => return other
    | "else" =>
      skip 4
      let otherwise ← statements fuel true
      expectWord "fi"
      return .choice [(condition, body)] otherwise
    | _ =>
      expectWord "fi"
      return .choice [(condition, body)] []

def repetition : Nat → Bool → Reader Command
  | 0, _ => refuse none
  | fuel + 1, untilGood => do
    let condition ← statements fuel true
    expectWord "do"
    let body ← statements fuel true
    expectWord "done"
    return .loop untilGood condition body

def enumeration : Nat → Reader Command
  | 0 => refuse none
  | fuel + 1 => do
    skipBlanks
    let complaint := "Syntax error: Bad for loop variable"
    let word ← wordPieces (statements fuel false) fuel
    if word.isEmpty then failAfter complaint
    match plainName? word with
    | none => fail complaint
    | some name =>
    skipLines
    let listed ← if plainWord (← get).rest = "in" then do
        skip 2
        let listed ← words (statements fuel false) fuel
        match (← get).rest with
        | '\n' :: _ => skip 1
        | ';' :: ';' :: _ => refuse none
        | ';' :: _ => skip 1
        | _ => refuse none
        pure (some listed)
      else do
        if (← get).rest.head? = some ';' then skip 1
        pure none
    expectWord "do"
    let body ← statements fuel true
    expectWord "done"
    return .each name listed body

def selection : Nat → Reader Command
  | 0 => refuse none
  | fuel + 1 => do
    skipBlanks
    let word ← wordPieces (statements fuel false) fuel
    if word.isEmpty then refuse (some "word")
    expectWord "in"
    let branches ← selectionBranches fuel
    return .select (withHome word) branches

def selectionBranches : Nat → Reader (List (List Word × List Statement))
  | 0 => refuse none
  | fuel + 1 => do
    skipLines
    if plainWord (← get).rest = "esac" then
      skip 4
      return []
    if (← get).rest.head? = some '(' then skip 1
    let patterns ← alternatives (statements fuel false) fuel
    let body ← statements fuel false
    skipLines
    let s := (← get).rest
    if [';', ';'].isPrefixOf s then
      skip 2
      return (patterns, body) :: (← selectionBranches fuel)
    if plainWord s = "esac" then
      skip 4
      return [(patterns, body)]
    refuse (some "\";;\"")

/-- Commands with bars between them. -/
def piped : Nat → Reader (List Command)
  | 0 => refuse none
  | fuel + 1 => do
    let first ← command fuel
    skipBlanks
    match (← get).rest with
    | '|' :: '|' :: _ => return [first]
    | '|' :: _ =>
      skip 1
      skipLines
      return first :: (← piped fuel)
    | _ => return [first]

/-- A statement that is run when `link` says so, and those that hang on how it ends. -/
def chained : Nat → Link → Reader (List Statement)
  | 0, _ => refuse none
  | fuel + 1, link => do
    skipToCommand
    let negated := plainWord (← get).rest = "!"
    if negated then
      skip 1
      skipBlanks
    let first := Statement.pipeline link negated (← piped fuel)
    skipBlanks
    match (← get).rest with
    | '&' :: '&' :: _ => skip 2; return first :: (← chained fuel .ifGood)
    | '|' :: '|' :: _ => skip 2; return first :: (← chained fuel .ifBad)
    | _ => return [first]

/-- Statements up to something that does not belong to them. -/
def statements : Nat → Bool → Reader (List Statement)
  | 0, _ => refuse none
  | fuel + 1, needed => do
    skipToCommand
    let s := (← get).rest
    if s.isEmpty then return []
    let closed := s.head? = some ')' || [';', ';'].isPrefixOf s ||
      closingWords.contains (plainWord s)
    if closed && !needed then return []
    let list ← chained fuel .always
    match ← separator? with
    | none => return list
    | some waited => return ended waited list ++ (← statements fuel false)
where
  /-- Statements that are waited for, or are not. -/
  ended (waited : Bool) (list : List Statement) : List Statement :=
    if waited then list else [.pipeline .always false [.background list]]
  /-- Goes past what separates statements and tells whether those before it are waited for. -/
  separator? : Reader (Option Bool) := do
    skipBlanks
    match (← get).rest with
    | ';' :: ';' :: _ => return none
    | ';' :: _ => skip 1; return some true
    | '&' :: _ => skip 1; return some false
    | '\n' :: _ => skip 1; return some true
    | _ => return none

end

end SymbolAtlas.Shell
