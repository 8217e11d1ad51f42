import SymbolAtlas.Shell.Reader.Text

namespace SymbolAtlas.Shell

open Reader

variable (commands : Reader (List Statement))

def backquoted (quoted : Bool) : Reader Piece := do
  let s := (← get).rest
  match splitBackquoted s with
  | some (text, rest) =>
    let body ← tryCatch (within 1 text commands) fun fault =>
      throw { fault with atEnd := false }
    skip (s.length - rest.length)
    return .output quoted body
  | none =>
    skip s.length
    fail "Syntax error: EOF in backquote substitution"

mutual

/-- What a dollar sign begins. -/
def expansion : Nat → Bool → Reader (List Piece)
  | 0, _ => refuse none
  | fuel + 1, quoted => do
    let s := (← get).rest
    match s with
    | '(' :: '(' :: inner =>
      match splitSum 0 inner with
      | some (text, _) =>
        let line := (← get).line
        skip (text.length + 4)
        return [.sum quoted (← within line text (quotedPieces fuel none []))]
      | none =>
        skip s.length
        fail "Syntax error: Missing '))'"
    | '(' :: _ =>
      skip 1
      let body ← onCommands commands
      expect ")"
      return [.output quoted body]
    | '\x7b' :: _ =>
      skip 1
      return [← braced fuel quoted]
    | _ =>
      let name := parameterName s
      skip name.length
      if name.isEmpty then return [.text quoted ['$']]
      return [.parameter quoted (String.ofList name) .value]

/-- What stands in braces after a dollar sign. What means nothing is read to the end, and told of when
it is run. -/
def braced : Nat → Bool → Reader Piece
  | 0, _ => refuse none
  | fuel + 1, quoted => do
    let bad : Reader Piece := do
      let _ ← bracedWord fuel quoted
      return .bad
    let s := (← get).rest
    if isLength s then
      let name := bracedName (s.drop 1)
      skip 1
      if name.isEmpty then passOver 1 else skip name.length
      if name.isEmpty || (← get).rest.head? ≠ some '\x7d' then bad
      else
        skip 1
        return .parameter quoted (String.ofList name) .length
    else
      let name := bracedName s
      skip name.length
      if name.isEmpty then
        if s.head? ≠ some '\x7d' then passOver 1
        bad
      else
        let use : Option (Word → Use) ← match (← get).rest with
          | '\x7d' :: _ => pure (some fun _ => .value)
          | ':' :: '-' :: _ => skip 2; pure (some (.orElse true))
          | ':' :: '=' :: _ => skip 2; pure (some (.orAssign true))
          | ':' :: '?' :: _ => skip 2; pure (some (.orFail true))
          | ':' :: '+' :: _ => skip 2; pure (some (.ifPresent true))
          | ':' :: _ => passOver 2; pure none
          | '-' :: _ => skip 1; pure (some (.orElse false))
          | '=' :: _ => skip 1; pure (some (.orAssign false))
          | '?' :: _ => skip 1; pure (some (.orFail false))
          | '+' :: _ => skip 1; pure (some (.ifPresent false))
          | '#' :: '#' :: _ => skip 2; pure (some (.without false true))
          | '#' :: _ => skip 1; pure (some (.without false false))
          | '%' :: '%' :: _ => skip 2; pure (some (.without true true))
          | '%' :: _ => skip 1; pure (some (.without true false))
          | _ => passOver 1; pure none
        match use with
        | none => bad
        | some use =>
          let isPattern := match use [] with
            | .without .. => true
            | _ => false
          return .parameter quoted (String.ofList name) (use (← bracedWord fuel (quoted && !isPattern)))
where
  bracedName (s : List Char) : List Char :=
    let digits := s.takeWhile Char.isDigit
    if digits.isEmpty then parameterName s else digits
  /-- Whether a length is asked for: of a variable, or of another parameter that stands alone. -/
  isLength (s : List Char) : Bool :=
    match s with
    | '#' :: c :: rest => isNameChar c || (c != '\x7d' && rest.head? == some '\x7d')
    | _ => false
  /-- Goes past characters that mean nothing. A line end among them is not counted. -/
  passOver (count : Nat) : Reader Unit :=
    modify fun c => { c with rest := c.rest.drop count }

/-- The word up to the closing brace, which is gone past. -/
def bracedWord : Nat → Bool → Reader Word
  | 0, _ => refuse none
  | fuel + 1, quoted => do
    let word ← if quoted then quotedPieces fuel (some '\x7d') [] else withHome <$> pieces fuel true []
    expect "\x7d"
    return word

/-- Quoted text up to a character that is left, or up to the end of the text. -/
def quotedPieces : Nat → Option Char → List Char → Reader (List Piece)
  | 0, _, _ => refuse none
  | fuel + 1, ending, text => do
    match (← get).rest with
    | [] =>
      if ending.isSome then failOpen
      return before true text []
    | c :: rest =>
      if ending = some c then return before true text []
      skip 1
      if c = '\\' then
        match rest with
        | d :: _ =>
          skip 1
          if d = '\n' then quotedPieces fuel ending text
          else if ['$', '\\', Char.ofNat 96].contains d || ending = some d ||
              (d = '"' && ending = some '\x7d') then
            quotedPieces fuel ending (text ++ [d])
          else quotedPieces fuel ending (text ++ [c, d])
        | [] => quotedPieces fuel ending (text ++ [c])
      else if c = '"' && ending = some '\x7d' then
        let inner ← quotedPieces fuel (some '"') []
        skip 1
        let inner := if inner.isEmpty then [.text true []] else inner
        return before true text (inner ++ (← quotedPieces fuel ending []))
      else if c = '$' then
        let inner ← expansion fuel true
        return before true text (inner ++ (← quotedPieces fuel ending []))
      else if c = Char.ofNat 96 then
        let inner ← backquoted commands true
        return before true text (inner :: (← quotedPieces fuel ending []))
      else
        let run := ordinaryRun isSpecial rest
        skip run.length
        quotedPieces fuel ending (text ++ c :: run)

/-- The pieces of a word, after `text`. In braces a word ends at the closing brace only. -/
def pieces : Nat → Bool → List Char → Reader (List Piece)
  | 0, _, _ => refuse none
  | fuel + 1, inBraces, text => do
    match (← get).rest with
    | [] =>
      if inBraces then fail "Syntax error: Missing '\x7d'"
      return before false text []
    | c :: rest =>
      if (if inBraces then c == '\x7d' else endsWord c) then return before false text []
      skip 1
      if c = '\'' then
        let inner ← literal
        return before false text (.text true inner :: (← pieces fuel inBraces []))
      else if c = '"' then
        let inner ← quotedPieces fuel (some '"') []
        skip 1
        let inner := if (← get).inDocument then inner.map bare else inner
        return before false text (quotedWhole inner ++ (← pieces fuel inBraces []))
      else if c = '\\' then
        match rest with
        | d :: _ =>
          skip 1
          if d = '\n' then pieces fuel inBraces text
          else return before false text (.text true [d] :: (← pieces fuel inBraces []))
        | [] => pieces fuel inBraces (text ++ [c])
      else if c = '$' then
        let inner ← expansion fuel false
        return before false text (inner ++ (← pieces fuel inBraces []))
      else if c = Char.ofNat 96 then
        let inner ← backquoted commands false
        return before false text (inner :: (← pieces fuel inBraces []))
      else
        let run := ordinaryRun (fun d => isSpecial d || endsWord d) rest
        skip run.length
        pieces fuel inBraces (text ++ c :: run)

end

/-- The pieces of a word that is not the stream of a redirection; none if no such word comes next. -/
def wordPieces (fuel : Nat) : Reader (List Piece) := do
  if (streamBefore (← get).rest).1.isSome then return []
  pieces commands fuel false []

/-- The words that come next, up to the end of their line or list. -/
def words : Nat → Reader (List Word)
  | 0 => refuse none
  | fuel + 1 => do
    skipBlanks
    let word ← pieces commands fuel false []
    if word.isEmpty then return []
    return withHome word :: (← words fuel)

/-- Patterns with bars between them and a bracket after them. -/
def alternatives : Nat → Reader (List Word)
  | 0 => refuse none
  | fuel + 1 => do
    skipBlanks
    let word ← withHome <$> wordPieces commands fuel
    if word.isEmpty then
      if (← get).rest.isEmpty then refuse (some "\")\"")
      skip (signLength (← get).rest)
    skipBlanks
    let s := (← get).rest
    match s with
    | '|' :: '|' :: _ => refuse (some "\")\"")
    | '|' :: _ => skip 1; return word :: (← alternatives fuel)
    | ')' :: _ => skip 1; return [word]
    | _ => refuse (some "\")\"") false

end SymbolAtlas.Shell
