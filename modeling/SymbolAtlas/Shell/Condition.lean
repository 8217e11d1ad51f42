import SymbolAtlas.Shell.Channel
import SymbolAtlas.Shell.Format
import SymbolAtlas.Tools.Tool

namespace SymbolAtlas.Shell.Condition

open Files

def unaryOperators : List String :=
  ["-n", "-z", "-e", "-f", "-d", "-r", "-w", "-x", "-s", "-t", "-h", "-L", "-b", "-c", "-p", "-S",
    "-u", "-g", "-k", "-O", "-G"]

def binaryOperators : List String :=
  ["=", "!=", "<", ">", "-eq", "-ne", "-lt", "-le", "-gt", "-ge", "-nt", "-ot", "-ef"]

/-- The whole number of 64 bits that an argument writes, with space around it. -/
def number (s : String) : Except String Int :=
  let trimmed := ((s.toList.dropWhile isSpace).reverse.dropWhile isSpace).reverse
  let (negative, digits) := match trimmed with
    | '-' :: rest => (true, rest)
    | '+' :: rest => (false, rest)
    | rest => (false, rest)
  let n : Nat := digits.foldl (fun n c => n * 10 + (c.toNat - '0'.toNat)) 0
  let value : Int := if negative then -(n : Int) else n
  if digits.isEmpty || !digits.all Char.isDigit || value < -0x8000000000000000 ||
      0x7fffffffffffffff < value then
    .error ("Illegal number: " ++ s)
  else .ok value

/-- What conditions look at: the files, and what the open streams lead to. -/
structure View where
  files : Tree
  streams : List (Nat × FileKind) := []

def View.kind? (v : View) (path : Path) : Option FileKind := do
  let place ← (v.files.place path).toOption
  match Machine.Device.at? place with
  | some (.stream number) => v.streams.lookup number
  | some _ => return .character
  | none =>
    match ← v.files.get? place with
    | .directory => return .directory
    | .file _ => return .regular

/-- Whether something holds of the place that a path leads to. -/
def View.isPlace (v : View) (path : Path) (p : Place → Bool) : Bool :=
  match v.files.place path with
  | .ok place => p place
  | .error _ => false

def unary (v : View) (operator argument : String) : Except String Bool := do
  let path : Path := ⟨toText argument⟩
  let kind := v.kind? path
  if operator = "-t" then let _ ← number argument
  return match operator with
    | "-n" => !argument.isEmpty
    | "-z" => argument.isEmpty
    | "-t" => false
    | "-f" => kind = some .regular
    | "-d" => kind = some .directory
    | "-c" => kind = some .character
    | "-p" => kind = some .pipe
    | "-x" => kind = some .directory || v.isPlace path fun place => (Tool.places.lookup place).isSome
    | "-h" | "-L" => v.isPlace path Machine.isLink
    | "-k" => v.isPlace path fun place => place == ["tmp"] || place == ["var", "tmp"]
    | "-s" => match kind with
      | some .regular => v.isPlace path fun place => !(contentsAt v.files place).isEmpty
      | kind => kind = some .directory
    | "-e" | "-r" | "-w" | "-O" | "-G" => kind.isSome
    | _ => false

def binary (v : View) (a operator b : String) : Except String Bool := do
  match operator with
  | "=" => return a == b
  | "!=" => return a != b
  | "<" => return decide (a < b)
  | ">" => return decide (b < a)
  | "-nt" | "-ot" => return false
  | "-ef" =>
    return v.isPlace ⟨toText a⟩ fun p => v.isPlace ⟨toText b⟩ fun q =>
      Machine.resolved p == Machine.resolved q && (v.kind? ⟨toText a⟩).isSome
  | _ =>
    let m ← number a
    let n ← number b
    return match operator with
      | "-eq" => m == n
      | "-ne" => m != n
      | "-lt" => m < n
      | "-le" => m ≤ n
      | "-gt" => n < m
      | _ => n ≤ m

inductive Token
  | ending
  | operand
  | unary (operator : String)
  | binary (operator : String)
  | negation
  | conjunction
  | disjunction
  | opening
  | closing
  deriving DecidableEq

/-- Whether what follows makes an argument an operand, though it has the form of a condition. -/
def precedesOperator : List String → Bool
  | [] => true
  | [_] => false
  | next :: _ => binaryOperators.contains next

def token : List String → Token
  | [] => .ending
  | first :: rest =>
    if unaryOperators.contains first then
      if precedesOperator rest then .operand else .unary first
    else if binaryOperators.contains first then .binary first
    else match first with
      | "!" => .negation
      | "-a" => .conjunction
      | "-o" => .disjunction
      | "(" => if rest.isEmpty then .operand else .opening
      | ")" => .closing
      | _ => .operand

mutual

/-- Conditions of which one has to hold, with the arguments from the last one that was read on. -/
def anyOf (v : View) : Nat → Token → List String → Except String (Bool × List String)
  | 0, _, _ => .error "too many arguments"
  | fuel + 1, first, arguments => do
    let (a, last) ← allOf v fuel first arguments
    if token last.tail = .disjunction then
      let rest := last.drop 2
      let (b, last) ← anyOf v fuel (token rest) rest
      return (a || b, last)
    return (a, last)

/-- Conditions that all have to hold. -/
def allOf (v : View) : Nat → Token → List String → Except String (Bool × List String)
  | 0, _, _ => .error "too many arguments"
  | fuel + 1, first, arguments => do
    let (a, last) ← negatable v fuel first arguments
    if token last.tail = .conjunction then
      let rest := last.drop 2
      let (b, last) ← allOf v fuel (token rest) rest
      return (a && b, last)
    return (a, last)

def negatable (v : View) : Nat → Token → List String → Except String (Bool × List String)
  | 0, _, _ => .error "too many arguments"
  | fuel + 1, first, arguments => do
    if first ≠ .negation then single v fuel first arguments
    else
      let next := token arguments.tail
      let (a, last) ← negatable v fuel next (if next = .ending then arguments else arguments.tail)
      return (!a, last)

def single (v : View) : Nat → Token → List String → Except String (Bool × List String)
  | 0, _, _ => .error "too many arguments"
  | fuel + 1, first, arguments => do
    match first with
    | .ending => return (false, arguments)
    | .opening =>
      let inner := arguments.tail
      if token inner = .closing then return (false, inner)
      let (a, last) ← anyOf v fuel (token inner) inner
      if token last.tail ≠ .closing then throw "closing paren expected"
      return (a, last.tail)
    | .unary operator =>
      match arguments.tail with
      | [] => throw (operator ++ ": argument expected")
      | argument :: rest => return (← unary v operator argument, argument :: rest)
    | _ =>
      match token arguments.tail with
      | .binary operator =>
        match arguments.drop 2 with
        | [] => throw (operator ++ ": argument expected")
        | b :: rest => return (← binary v (arguments.headD "") operator b, b :: rest)
      | _ => return (!(arguments.headD "").isEmpty, arguments)

end

def parsed (v : View) (first : Token) (arguments : List String) : Except String Bool := do
  let (value, last) ← anyOf v (4 * arguments.length + 4) first arguments
  match last with
  | extra :: _ :: _ =>
    throw (if extra.isEmpty then "unexpected operator" else extra ++ ": unexpected operator")
  | _ => return value

/-- Whether a condition holds, or does not if that is asked for. An operator between two arguments is
one whatever they are; brackets around three or four arguments and a negation before them go
first. -/
def holdsUnless (v : View) (negated : Bool) : List String → Except String Bool
  | [] => .ok negated
  | first :: rest =>
    let arguments := first :: rest
    let finish (token : Token) (arguments : List String) : Except String Bool :=
      (parsed v token arguments).map (· != negated)
    let few := rest.length = 2 || rest.length = 3
    if rest.length = 2 && binaryOperators.contains (rest.headD "") then finish .operand arguments
    else if few && first = "(" && rest.getLast? = some ")" then
      finish (token rest.dropLast) rest.dropLast
    else if few && first = "!" then holdsUnless v true rest
    else finish (token arguments) arguments

def holds (v : View) (arguments : List String) : Except String Bool :=
  holdsUnless v false arguments

end SymbolAtlas.Shell.Condition
