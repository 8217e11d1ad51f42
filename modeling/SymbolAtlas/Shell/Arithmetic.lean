import SymbolAtlas.Shell.Format

namespace SymbolAtlas.Shell.Arithmetic

inductive Fault
  | expecting (what : String)
  | divisionByZero
  /-- A quotient that the machine cannot tell. -/
  | noQuotient
  /-- The value of a variable is no number. -/
  | notNumeric (value : String)

def Fault.message (expression : String) : Fault → String
  | expecting what => "arithmetic expression: expecting " ++ what ++ ": \"" ++ expression ++ "\""
  | divisionByZero => "arithmetic expression: division by zero: \"" ++ expression ++ "\""
  | noQuotient => "arithmetic expression: no quotient: \"" ++ expression ++ "\""
  | notNumeric value => "Illegal number: " ++ value

/-- An expression under way: the text that is left, and the variables that have got values, the last
one first. -/
structure Progress where
  rest : List Char
  assigned : List (String × Int) := []

abbrev Sum := StateT Progress (Except Fault)

/-- The signs of the language. One that begins like another one stands before it. -/
def signs : List String :=
  ["<<=", ">>=", "||", "&&", "==", "!=", "<=", ">=", "<<", ">>", "+=", "-=", "*=", "/=", "%=", "&=",
    "|=", "^=", "=", "<", ">", "+", "-", "*", "/", "%", "&", "|", "^", "!", "~", "?", ":", "(", ")"]

/-- How tightly the operators between two values bind. -/
def precedences : List (String × Nat) :=
  [("|", 1), ("^", 2), ("&", 3), ("==", 4), ("!=", 4), ("<=", 5), (">=", 5), ("<", 5), (">", 5),
    ("<<", 6), (">>", 6), ("+", 7), ("-", 7), ("*", 8), ("/", 8), ("%", 8)]

/-- The signs that assign, with the operators that they carry out before. -/
def assigning : List (String × Option String) :=
  [("=", none), ("<<=", some "<<"), (">>=", some ">>"), ("+=", some "+"), ("-=", some "-"),
    ("*=", some "*"), ("/=", some "/"), ("%=", some "%"), ("&=", some "&"), ("|=", some "|"),
    ("^=", some "^")]

def ofBool (b : Bool) : Int :=
  if b then 1 else 0

/-- A number cut to 64 bits. -/
def cut (n : Int) : Int :=
  (Int64.ofInt n).toInt

def apply (operator : String) (a b : Int) : Except Fault Int :=
  let bits (f : Int64 → Int64 → Int64) : Int := (f (.ofInt a) (.ofInt b)).toInt
  match operator with
  | "|" => .ok (bits (· ||| ·))
  | "^" => .ok (bits (· ^^^ ·))
  | "&" => .ok (bits (· &&& ·))
  | "==" => .ok (ofBool (a = b))
  | "!=" => .ok (ofBool (a ≠ b))
  | "<=" => .ok (ofBool (a ≤ b))
  | ">=" => .ok (ofBool (b ≤ a))
  | "<" => .ok (ofBool (a < b))
  | ">" => .ok (ofBool (b < a))
  | "<<" => .ok (bits (· <<< ·))
  | ">>" => .ok (bits (· >>> ·))
  | "+" => .ok (cut (a + b))
  | "-" => .ok (cut (a - b))
  | "*" => .ok (cut (a * b))
  | _ =>
    if b = 0 then .error .divisionByZero
    else if b = -1 && a = -0x8000000000000000 then .error .noQuotient
    else .ok (if operator = "/" then Int.tdiv a b else Int.tmod a b)

/-- The value of a variable's text: a number, zero if it is empty. -/
def variableValue (text : String) : Except Fault Int :=
  let s := text.toList.dropWhile isSpace
  let trimmed := (s.reverse.dropWhile isSpace).reverse
  let n := signedNumeral (String.ofList trimmed)
  let quoted := trimmed.head?.any fun c => c == '"' || c == '\''
  if n.complaints.isEmpty && !quoted then .ok n.value else .error (.notNumeric text)

def isNameChar (c : Char) : Bool :=
  c.isAlphanum || c == '_'

/-- The text that is left, without the space at its front. -/
def rest : Sum (List Char) := do
  let s := (← get).rest.dropWhile fun c => c == ' ' || c == '\t' || c == '\n'
  modify fun p => { p with rest := s }
  return s

def sign? : Sum (Option String) := do
  let s ← rest
  return signs.find? fun sign => sign.toList.isPrefixOf s

def skip (count : Nat) : Sum Unit :=
  modify fun p => { p with rest := p.rest.drop count }

def expect (sign : String) : Sum Unit := do
  if (← sign?) = some sign then skip sign.length else throw (.expecting ("'" ++ sign ++ "'"))

/-- The value of a variable, where `values` tells what those have that got none here. -/
def lookUp (values : String → String) (name : String) : Sum Int := do
  match (← get).assigned.lookup name with
  | some n => return n
  | none => variableValue (values name)

mutual

/-- A value with the signs before it. With `counts` off nothing is carried out. -/
def primary (values : String → String) : Nat → Bool → Sum Int
  | 0, _ => throw (.expecting "primary")
  | fuel + 1, counts => do
    match ← sign? with
    | some "(" =>
      skip 1
      let n ← assignment values fuel counts
      if (← sign?) ≠ some ")" then throw (.expecting "')'")
      skip 1
      return n
    | some "-" => skip 1; return cut (-(← primary values fuel counts))
    | some "+" => skip 1; primary values fuel counts
    | some "!" => skip 1; return ofBool ((← primary values fuel counts) = 0)
    | some "~" => skip 1; return -(← primary values fuel counts) - 1
    | _ =>
      let s ← rest
      match numeralAt s with
      | some (n, rest) =>
        skip (s.length - rest.length)
        return min n (2 ^ 63 - 1)
      | none =>
        let name := s.takeWhile isNameChar
        if name.isEmpty then throw (.expecting "primary")
        skip name.length
        if counts then lookUp values (String.ofList name) else return 0

/-- Goes on after a value with the operators of at least the precedence `level`. -/
def continued (values : String → String) : Nat → Bool → Nat → Int → Sum Int
  | 0, _, _, _ => throw (.expecting "primary")
  | fuel + 1, counts, level, n => do
    let operator := (← sign?).getD ""
    match precedences.lookup operator with
    | some precedence =>
      if precedence < level then return n
      skip operator.length
      let m ← primary values fuel counts
      let m ← continued values fuel counts (precedence + 1) m
      let value ← if counts then (apply operator n m : Except Fault Int) else pure m
      continued values fuel counts level value
    | none => return n

/-- Values of which all have to be other than zero. -/
def conjunction (values : String → String) : Nat → Bool → Sum Int
  | 0, _ => throw (.expecting "primary")
  | fuel + 1, counts => do
    let n ← continued values fuel counts 0 (← primary values fuel counts)
    if (← sign?) ≠ some "&&" then return n
    skip 2
    let m ← conjunction values fuel (counts && n ≠ 0)
    return ofBool (n ≠ 0 && m ≠ 0)

/-- Values of which one has to be other than zero. -/
def disjunction (values : String → String) : Nat → Bool → Sum Int
  | 0, _ => throw (.expecting "primary")
  | fuel + 1, counts => do
    let n ← conjunction values fuel counts
    if (← sign?) ≠ some "||" then return n
    skip 2
    let m ← disjunction values fuel (counts && n = 0)
    return ofBool (n ≠ 0 || m ≠ 0)

def conditional (values : String → String) : Nat → Bool → Sum Int
  | 0, _ => throw (.expecting "primary")
  | fuel + 1, counts => do
    let n ← disjunction values fuel counts
    if (← sign?) ≠ some "?" then return n
    skip 1
    let a ← assignment values fuel (counts && n ≠ 0)
    expect ":"
    let b ← conditional values fuel (counts && n = 0)
    return if n ≠ 0 then a else b

def assignment (values : String → String) : Nat → Bool → Sum Int
  | 0, _ => throw (.expecting "primary")
  | fuel + 1, counts => do
    let start ← get
    let name := (← rest).takeWhile isNameChar
    let isVariable := name.head?.any fun c => !c.isDigit
    skip name.length
    match (← sign?).bind fun sign => (assigning.lookup sign).map (sign, ·) with
    | some (sign, operator) =>
      if !isVariable then
        set start
        conditional values fuel counts
      else
        skip sign.length
        let n ← assignment values fuel counts
        if !counts then return n
        let name := String.ofList name
        let n ← match operator with
          | some operator => (apply operator (← lookUp values name) n : Except Fault Int)
          | none => pure n
        modify fun p => { p with assigned := (name, n) :: p.assigned }
        return n
    | none =>
      set start
      conditional values fuel counts

end

/-- The value of an expression, and the variables that get values by it in order. Every call goes
past a character within a few calls. -/
def evaluate (values : String → String) (expression : List Char) :
    Except Fault (Int × List (String × Int)) := do
  let (n, p) ← (do
    let n ← assignment values (8 * expression.length + 16) true
    if !(← rest).isEmpty then throw (.expecting "EOF")
    return n : Sum Int).run { rest := expression }
  return (n, p.assigned.reverse)

end SymbolAtlas.Shell.Arithmetic
