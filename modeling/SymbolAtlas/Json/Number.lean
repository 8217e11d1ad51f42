import SymbolAtlas.Decimal
import SymbolAtlas.Json

namespace SymbolAtlas.Json

/-- The exponents of the leading digit between which a double is written without an exponent. -/
def plainExponents : Int × Int :=
  (-5, 15)

/-- The text of a positive decimal with a point in it. -/
def plainText (digits : List Char) (lead : Int) : List Char :=
  if lead < 0 then ['0', '.'] ++ List.replicate (-lead - 1).toNat '0' ++ digits
  else
    let whole := lead.toNat + 1
    let padded := digits ++ List.replicate (whole - digits.length) '0'
    let fraction := padded.drop whole
    padded.take whole ++ ['.'] ++ if fraction.isEmpty then ['0'] else fraction

/-- The text of a positive decimal with an exponent. -/
def exponentText (digits : List Char) (lead : Int) : List Char :=
  let front := match digits with
    | first :: second :: rest => first :: '.' :: second :: rest
    | _ => digits
  front ++ ['e', if lead < 0 then '-' else '+'] ++ Nat.toDigits 10 lead.natAbs

def decimalText (d : Decimal) : List Char :=
  let digits := Nat.toDigits 10 d.digits
  let lead := d.exponent + digits.length - 1
  if plainExponents.1 ≤ lead && lead ≤ plainExponents.2 then plainText digits lead
  else exponentText digits lead

/-- A finite double as a JSON number. -/
def ofDouble (f : Float) : Json :=
  let magnitude := f.abs.toBits
  let text := if magnitude = 0 then ['0', '.', '0'] else decimalText (.shortest magnitude)
  number (String.ofList (if magnitude = f.toBits then text else '-' :: text))

/-! ## Reading -/

/-- A number under reading: the leading digits as far as they fit in 64 bits, and the power of ten
that goes with them. -/
structure Scaled where
  significand : Nat := 0
  exponent : Int := 0

/-- Takes the digits of the whole part. Once one does not fit, it and those after it only scale. -/
def Scaled.addWhole (n : Scaled) : List Char → Scaled
  | [] => n
  | c :: rest =>
    let next := n.significand * 10 + (c.toNat - '0'.toNat)
    if next < UInt64.size then { n with significand := next }.addWhole rest
    else { n with exponent := n.exponent + (rest.length + 1) }

/-- Takes the digits behind the point. Once one does not fit, it and those after it are left out. -/
def Scaled.addFraction (n : Scaled) : List Char → Scaled
  | [] => n
  | c :: rest =>
    let next := n.significand * 10 + (c.toNat - '0'.toNat)
    if next < UInt64.size then Scaled.addFraction ⟨next, n.exponent - 1⟩ rest else n

/-- Scales a double by a power of ten, in at most `steps` steps. -/
def scaleDouble : Nat → Float → Int → Option Float
  | 0, f, _ => some f
  | steps + 1, f, exponent =>
    if exponent.natAbs ≤ 308 then
      let power := Float.ofScientific 1 false exponent.natAbs
      if exponent < 0 then some (f / power)
      else if (f * power).isInf then none
      else some (f * power)
    else if f == 0.0 then some f
    else if 0 ≤ exponent then none
    else scaleDouble steps (f / Float.ofScientific 1 false 308) (exponent + 308)

/-- The number as a double, if it is not too large. Four steps bring any double to zero. -/
def Scaled.toDouble? (n : Scaled) : Option Float :=
  scaleDouble 4 n.significand.toUInt64.toFloat n.exponent

def takeDigits (s : List Char) : List Char × List Char :=
  (s.takeWhile Char.isDigit, s.dropWhile Char.isDigit)

/-- The exponent at the front, zero where there is none. -/
def exponentPart? (s : List Char) : Option (Int × List Char) :=
  match s with
  | c :: rest =>
    if c = 'e' || c = 'E' then
      let (negative, rest) := match rest with
        | '-' :: rest => (true, rest)
        | '+' :: rest => (false, rest)
        | _ => (false, rest)
      let (digits, rest) := takeDigits rest
      if digits.isEmpty then none
      else
        let n : Int := digits.foldl (fun n c => n * 10 + (c.toNat - '0'.toNat)) 0
        some (if negative then -n else n, rest)
    else some (0, s)
  | [] => some (0, s)

/-- The fraction at the front, empty where there is none. -/
def fractionPart? (s : List Char) : Option (List Char × List Char) :=
  match s with
  | '.' :: rest =>
    let (digits, rest) := takeDigits rest
    if digits.isEmpty then none else some (digits, rest)
  | _ => some ([], s)

/-- Reads a number at the front of a text. A whole part of several digits does not begin with zero;
a negative zero is a double. -/
def number? (s : List Char) : Option (Json × List Char) := do
  let (negative, s) := match s with
    | '-' :: rest => (true, rest)
    | _ => (false, s)
  let (whole, afterWhole) := takeDigits s
  if whole.isEmpty || (whole.head? = some '0' && whole.length ≠ 1) then none
  let (fraction, afterFraction) ← fractionPart? afterWhole
  let (exponent, rest) ← exponentPart? afterFraction
  let scaled := Scaled.addWhole {} whole
  let isWhole := rest.length = afterWhole.length && scaled.exponent = 0
  if isWhole && !negative then return (ofNat scaled.significand, rest)
  if isWhole && scaled.significand ≠ 0 && scaled.significand ≤ Nat.pow 2 63 then
    return (number ("-" ++ toString scaled.significand), rest)
  let scaled := scaled.addFraction fraction
  let f ← { scaled with exponent := scaled.exponent + exponent }.toDouble?
  return (ofDouble (if negative then -f else f), rest)

end SymbolAtlas.Json
