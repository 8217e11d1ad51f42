namespace SymbolAtlas.Shell

/-- Characters, each with whether it is quoted. -/
abbrev Pattern := List (Bool × Char)

namespace Pattern

/-- What may stand in brackets. -/
inductive Member
  | range (low high : Char)
  | kind (holds : Char → Bool)

/-- The characters of a kind that has a name. -/
def kindOf? (name : List Char) : Option (Char → Bool) :=
  match String.ofList name with
  | "alpha" => some Char.isAlpha
  | "digit" => some Char.isDigit
  | "alnum" => some Char.isAlphanum
  | "upper" => some Char.isUpper
  | "lower" => some Char.isLower
  | "space" => some fun c => c == ' ' || ('\t' ≤ c && c ≤ '\r')
  | "blank" => some fun c => c == ' ' || c == '\t'
  | "punct" => some fun c => '!' ≤ c && c ≤ '~' && !c.isAlphanum
  | "print" => some fun c => ' ' ≤ c && c ≤ '~'
  | "graph" => some fun c => '!' ≤ c && c ≤ '~'
  | "cntrl" => some fun c => c < ' ' || c == '\x7f'
  | "xdigit" => some fun c => c.isDigit || ('a' ≤ c && c ≤ 'f') || ('A' ≤ c && c ≤ 'F')
  | _ => none

/-- The place of a bytewise character in ranges: bytes above the seven bits come first. -/
def rank (c : Char) : Nat :=
  (c.toNat + 128) % 256

def Member.holds (m : Member) (c : Char) : Bool :=
  match m with
  | range low high => rank low ≤ rank c && rank c ≤ rank high
  | kind holds => holds c

/-- The kind of characters that is named at the front, with what follows it. -/
def kind? : Pattern → Option ((Char → Bool) × Pattern)
  | (false, '[') :: (false, ':') :: rest =>
    let name := (rest.takeWhile fun c => c.2.isAlpha).map (·.2)
    match rest.drop name.length with
    | (false, ':') :: (false, ']') :: rest => (kindOf? name).map (·, rest)
    | _ => none
  | _ => none

/-- The members in brackets up to the closing one, in at most `steps` steps. A bracket that comes
first is a member. -/
def members? : Nat → Bool → Pattern → Option (List Member × Pattern)
  | 0, _, _ => none
  | steps + 1, first, p =>
    let more (m : Member) (rest : Pattern) : Option (List Member × Pattern) :=
      (members? steps false rest).map fun (members, rest) => (m :: members, rest)
    match kind? p with
    | some (holds, rest) => more (.kind holds) rest
    | none =>
      match p with
      | [] => none
      | (quoted, c) :: rest =>
        if !quoted && c = ']' && !first then some ([], rest)
        else match rest with
          | (false, '-') :: (isQuoted, d) :: after =>
            if !isQuoted && d = ']' then more (.range c c) rest else more (.range c d) after
          | _ => more (.range c c) rest

/-- Whether brackets are negated, with what stands in them. -/
def bracketed? (p : Pattern) : Option (Bool × List Member × Pattern) :=
  match p with
  | (false, '!') :: rest => (members? p.length true rest).map (true, ·)
  | _ => (members? p.length true p).map (false, ·)

/-- Whether a pattern matches a whole text, decided in at most `steps` steps. -/
def matchesIn : Nat → Pattern → List Char → Bool
  | 0, _, _ => false
  | steps + 1, p, s =>
    match p, s with
    | [], s => s.isEmpty
    | (false, '*') :: rest, [] => matchesIn steps rest []
    | (false, '*') :: rest, c :: more => matchesIn steps rest (c :: more) || matchesIn steps p more
    | _ :: _, [] => false
    | (false, '?') :: rest, _ :: more => matchesIn steps rest more
    | (false, '[') :: rest, c :: more =>
      match bracketed? rest with
      | some (negated, members, rest) =>
        (members.any (·.holds c)) != negated && matchesIn steps rest more
      | none => c = '[' && matchesIn steps rest more
    | (_, x) :: rest, c :: more => x = c && matchesIn steps rest more

/-- Whether a pattern matches a whole text. A step takes something off the pattern or the text. -/
def matchesAll (p : Pattern) (s : List Char) : Bool :=
  matchesIn (p.length + s.length + 1) p s

def hasWildcard (p : Pattern) : Bool :=
  p.any fun (quoted, c) => !quoted && (c == '*' || c == '?' || c == '[')

/-- The pattern after backslashes that are not quoted, each of which quotes the character after it. -/
def unescaped : Pattern → Pattern
  | (false, '\\') :: (_, c) :: rest => (true, c) :: unescaped rest
  | c :: rest => c :: unescaped rest
  | [] => []

/-- A text up to its first zero character. -/
def upToZero (s : List Char) : List Char :=
  s.takeWhile (· != '\x00')

/-- The text without the shortest or the longest part at one end that the pattern matches. Zero
characters separate several texts: a part that grows does not grow over one, and nothing of a part is
looked at after one. -/
def cut (p : Pattern) (atEnd longest : Bool) (s : List Char) : List Char :=
  let places := List.range (s.length + 1)
  let places := if longest == atEnd then places.take ((upToZero s).length + 1) else places.reverse
  let part (n : Nat) : List Char := upToZero (if atEnd then s.drop n else s.take n)
  match places.find? fun n => p.matchesAll (part n) with
  | some n => if atEnd then s.take n else s.drop n
  | none => s

/-- Characters that are marked where they are quoted. -/
def isMarked (c : Char) : Bool :=
  "!*?[=~:/-]\\".toList.contains c || ('\x81' ≤ c && c ≤ '\x88')

/-- A text with its marks. -/
def withMarks (s : List Char) : List Char :=
  s.flatMap fun c => if isMarked c then ['\x81', c] else [c]

/-- The texts without a part at one end, as `cut` takes it away, where they are quoted. If the first one
has marks, places are counted from the end of all texts, but parts are compared that begin or end as
far from the end of the first one. In front of it stand the pattern and the marked texts. -/
def cutQuoted (p : Pattern) (atEnd longest : Bool) (s : List Char) : List Char :=
  let first := upToZero s
  if longest == atEnd || !first.any isMarked then p.cut atEnd longest s
  else if atEnd then
    let own := p.flatMap fun (quoted, c) => if quoted then ['\\', c] else [c]
    let before := withMarks s ++ '\x00' :: own ++ '\x00' :: first
    let part (n : Nat) : List Char := upToZero (before.drop (before.length - n))
    match (List.range (s.length + 1)).find? fun n => p.matchesAll (part n) with
    | some n => s.take (s.length - n)
    | none => s
  else
    let part (n : Nat) : List Char := first.take (first.length - n)
    match (List.range (first.length + 1)).find? fun n => p.matchesAll (part n) with
    | some n => s.drop (s.length - n)
    | none => s

end Pattern

end SymbolAtlas.Shell
