import SymbolAtlas.Toml.Text
import SymbolAtlas.Toml.Value

namespace SymbolAtlas.Toml

/-- The digits in the class `p` at the front, without the underscores between them. -/
def digitsIn (p : Char → Bool) : List Char → List Char × List Char
  | [] => ([], [])
  | c :: rest =>
    if p c then
      let (digits, rest) := digitsIn p rest
      (c :: digits, rest)
    else if c = '_' && rest.head?.any p then digitsIn p rest
    else ([], c :: rest)

/-- One digit of the class `p` at least. -/
def someDigits? (p : Char → Bool) (s : List Char) : Option (List Char × List Char) :=
  if s.head?.any p then some (digitsIn p s) else none

def sign? : List Char → List Char × List Char
  | '+' :: rest => (['+'], rest)
  | '-' :: rest => (['-'], rest)
  | s => ([], s)

/-- A whole number in base ten without its sign. Only zero begins with the digit zero. -/
def decimal? : List Char → Option (List Char × List Char)
  | '0' :: rest => some (['0'], rest)
  | s => someDigits? Char.isDigit s

def valueIn (base : Nat) (digits : List Char) : Nat :=
  digits.foldl (fun n c => n * base + (Text.hexValue? c).getD 0) 0

/-- Whole numbers have 64 bits and a sign. -/
def bounded? (i : Int) : Option Value :=
  if Int64.minValue.toInt ≤ i && i ≤ Int64.maxValue.toInt then some (.integer i) else none

/-- The base that a letter after a zero stands for. -/
def baseOf? : Char → Option Nat
  | 'x' => some 16
  | 'o' => some 8
  | 'b' => some 2
  | _ => none

def isDigitIn (base : Nat) (c : Char) : Bool :=
  (Text.hexValue? c).any (· < base)

def integer? (s : List Char) : Option (Value × List Char) := do
  let based := match s with
    | '0' :: letter :: rest => (baseOf? letter).map fun base => (base, rest)
    | _ => none
  match based with
  | some (base, rest) =>
    let (digits, rest) ← someDigits? (isDigitIn base) rest
    return (← bounded? (valueIn base digits), rest)
  | none =>
    let (sign, rest) := sign? s
    let (digits, rest) ← decimal? rest
    let n : Int := valueIn 10 digits
    return (← bounded? (if sign = ['-'] then -n else n), rest)

/-! ## Floats -/

/-- Whether the digits, with the point after the first `whole` of them and scaled by ten to the
power `exponent`, are beyond the largest double: at or above the middle between it and the next power
of two. -/
def overflows (digits : List Char) (whole : Nat) (exponent : Int) : Bool :=
  let lead := digits.takeWhile (· == '0')
  let digits := digits.dropWhile (· == '0')
  let limit := Nat.pow 2 1024 - Nat.pow 2 970
  let magnitude := (whole : Int) - lead.length + exponent
  if digits.isEmpty || magnitude < 309 then false
  else if magnitude > 309 then true
  else
    let scale := digits.length
    Nat.pow 10 309 * valueIn 10 digits ≥ limit * Nat.pow 10 scale

/-- The part of a float after the point. -/
def fraction? : List Char → Option (List Char × List Char)
  | '.' :: rest => someDigits? Char.isDigit rest
  | _ => none

/-- The exponent of a float with its sign. -/
def exponent? : List Char → Option ((List Char × List Char) × List Char)
  | c :: rest =>
    if c = 'e' || c = 'E' then
      let (sign, rest) := sign? rest
      (someDigits? Char.isDigit rest).map fun (digits, rest) => ((sign, digits), rest)
    else none
  | [] => none

/-- Infinity and the value that is no number. -/
def specialFloat? : List Char → Option (List Char × List Char)
  | 'i' :: 'n' :: 'f' :: rest => some (['i', 'n', 'f'], rest)
  | 'n' :: 'a' :: 'n' :: rest => some (['n', 'a', 'n'], rest)
  | _ => none

/-- A float in digits: it has a fraction or an exponent, and is not too large. -/
def digitFloat? (s : List Char) : Option (Value × List Char) := do
  let (sign, rest) := sign? s
  let (whole, rest) ← decimal? rest
  let (fraction, rest, hasFraction) := match fraction? rest with
    | some (digits, rest) => (digits, rest, true)
    | none => ([], rest, false)
  let (exponent, rest, hasExponent) := match exponent? rest with
    | some (e, rest) => (e, rest, true)
    | none => (([], []), rest, false)
  if !hasFraction && !hasExponent then none
  else
    let power : Int := valueIn 10 exponent.2
    let power := if exponent.1 = ['-'] then -power else power
    if sign ≠ ['-'] && overflows (whole ++ fraction) whole.length power then none
    else
      let written := sign ++ whole ++ (if hasFraction then '.' :: fraction else []) ++
        (if hasExponent then 'e' :: (exponent.1 ++ exponent.2) else [])
      return (.float (String.ofList written), rest)

def float? (s : List Char) : Option (Value × List Char) :=
  match digitFloat? s with
  | some r => some r
  | none =>
    let (sign, rest) := sign? s
    (specialFloat? rest).map fun (name, rest) => (.float (String.ofList (sign ++ name)), rest)

/-! ## Dates and times -/

/-- A number of exactly `count` digits. -/
def fixedDigits? (count : Nat) (s : List Char) : Option (Nat × List Char) :=
  let digits := s.take count
  if digits.length = count && digits.all Char.isDigit then some (valueIn 10 digits, s.drop count)
  else none

def char? (c : Char) : List Char → Option (List Char)
  | d :: rest => if d = c then some rest else none
  | [] => none

def daysIn (year month : Nat) : Nat :=
  if month = 2 then
    if year % 4 = 0 && (year % 100 ≠ 0 || year % 400 = 0) then 29 else 28
  else if month = 4 || month = 6 || month = 9 || month = 11 then 30
  else 31

/-- The rest after a date of the calendar. -/
def day? (s : List Char) : Option (List Char) := do
  let (year, s) ← fixedDigits? 4 s
  let s ← char? '-' s
  let (month, s) ← fixedDigits? 2 s
  let s ← char? '-' s
  let (day, s) ← fixedDigits? 2 s
  if 1 ≤ month && month ≤ 12 && 1 ≤ day && day ≤ daysIn year month then some s else none

/-- The rest after hours and minutes. -/
def hourMinute? (s : List Char) : Option (List Char) := do
  let (hour, s) ← fixedDigits? 2 s
  let s ← char? ':' s
  let (minute, s) ← fixedDigits? 2 s
  if hour ≤ 23 && minute ≤ 59 then some s else none

/-- The rest after a time of day. A minute may have a leap second. -/
def time? (s : List Char) : Option (List Char) := do
  let s ← hourMinute? s
  let s ← char? ':' s
  let (second, s) ← fixedDigits? 2 s
  if second > 60 then none
  else match s with
    | '.' :: rest =>
      if rest.head?.any Char.isDigit then some (rest.dropWhile Char.isDigit) else some s
    | _ => some s

/-- The rest after the offset of a time zone. -/
def offset? : List Char → Option (List Char)
  | [] => none
  | c :: rest =>
    if c = 'Z' || c = 'z' then some rest
    else if c = '+' || c = '-' then hourMinute? rest
    else none

/-- The rest after a date, a time, or a date with a time and perhaps a time zone. -/
def afterDate? (s : List Char) : Option (List Char) :=
  match day? s with
  | none => time? s
  | some rest =>
    match rest with
    | c :: more =>
      if c = 'T' || c = 't' || c = ' ' then
        match time? more with
        | some rest => some ((offset? rest).getD rest)
        | none => some (c :: more)
      else some (c :: more)
    | [] => some []

def date? (s : List Char) : Option (Value × List Char) :=
  (afterDate? s).map fun rest =>
    (.date (String.ofList (s.take (s.length - rest.length))), rest)

/-- A date, a float or a whole number, whichever is found first. -/
def number? (s : List Char) : Option (Value × List Char) :=
  (date? s).or ((float? s).or (integer? s))

end SymbolAtlas.Toml
