import SymbolAtlas.Text.Quoted

/-!
# Doubles in output

Doubles that texts write, and the texts that are written for doubles: with a point, with an exponent,
with whichever is shorter, and in base sixteen. A double is kept as a whole number times a power of
two, and all rounding is of exact quotients, to the nearest with ties to even.
-/

namespace SymbolAtlas.Shell

/-- A double apart from its sign. -/
inductive Magnitude
  | notNumber
  | infinite
  /-- The number `significand · 2 ^ exponent`. -/
  | finite (significand : Nat) (exponent : Int)
  deriving Inhabited

structure Double where
  negative : Bool := false
  magnitude : Magnitude := .finite 0 0
  deriving Inhabited

def roundedQuotient (numerator denominator : Nat) : Nat :=
  let below := numerator / denominator
  let twice := 2 * (numerator % denominator)
  if denominator < twice || (twice = denominator && below % 2 = 1) then below + 1 else below

namespace Magnitude

/-- The quotient of two whole numbers as a double, and whether it is out of range. -/
def ofQuotient (numerator denominator : Nat) : Magnitude × Bool :=
  if numerator = 0 then (.finite 0 0, false)
  else
    let guess : Int := (Nat.log2 numerator : Int) - Nat.log2 denominator - 52
    let scaled (exponent : Int) : Nat × Nat :=
      (numerator * Nat.pow 2 (-exponent).toNat, denominator * Nat.pow 2 exponent.toNat)
    let small := let (n, d) := scaled guess; n / d < Nat.pow 2 52
    let exponent := max (if small then guess - 1 else guess) (-1074)
    let (n, d) := scaled exponent
    let significand := roundedQuotient n d
    let tooSmall := significand < Nat.pow 2 52 && significand * d ≠ n
    if Nat.pow 2 1024 ≤ significand * Nat.pow 2 exponent.toNat then (.infinite, true)
    else (.finite significand exponent, tooSmall)

end Magnitude

/-! ## Reading -/

/-- The digits at the front that `isDigit` accepts, with those after a point, and what follows. -/
def pointedDigits (isDigit : Char → Bool) (s : List Char) : List Char × List Char × List Char :=
  let whole := s.takeWhile isDigit
  match s.drop whole.length with
  | '.' :: rest =>
    let fraction := rest.takeWhile isDigit
    if whole.isEmpty && fraction.isEmpty then ([], [], s)
    else (whole, fraction, rest.drop fraction.length)
  | rest => (whole, [], rest)

/-- An exponent after one of two letters, zero if there is none, and what follows. -/
def exponentAt (small capital : Char) (s : List Char) : Int × List Char :=
  match s with
  | c :: rest =>
    if c ≠ small && c ≠ capital then (0, s)
    else
      let (negative, rest) := match rest with
        | '-' :: rest => (true, rest)
        | '+' :: rest => (false, rest)
        | rest => (false, rest)
      let digits := rest.takeWhile Char.isDigit
      if digits.isEmpty then (0, s)
      else
        let n : Nat := digits.foldl (fun n c => min 100000000 (n * 10 + (c.toNat - '0'.toNat))) 0
        (if negative then -(n : Int) else n, rest.drop digits.length)
  | [] => (0, s)

def valueOfDigits (base : Nat) (digits : List Char) : Nat :=
  digits.foldl (fun n c => n * base + (Text.hexValue? c).getD 0) 0

/-- The double nearest to `digits · base ^ exponent · scale ^ power`, where numbers far beyond the
range are not computed. -/
def scaledMagnitude (digits : Nat) (base scale : Nat) (places : Nat) (power : Int) :
    Magnitude × Bool :=
  let size : Int := (Nat.log2 digits : Int) + power * (if scale = 2 then 1 else 3)
  if digits = 0 then (.finite 0 0, false)
  else if size > 4000 + 4 * places then (.infinite, true)
  else if size < -4000 - 4 * (places : Int) then (.finite 0 0, true)
  else Magnitude.ofQuotient (digits * Nat.pow scale power.toNat)
    (Nat.pow base places * Nat.pow scale (-power).toNat)

def beginsWith (letters : String) (s : List Char) : Bool :=
  s.length ≥ letters.length && (s.take letters.length).map Char.toLower = letters.toList

/-- The double at the front of a text without its sign, and what follows; nothing if there is
none. -/
def magnitudeAt? (s : List Char) : Option ((Magnitude × Bool) × List Char) :=
  let isHex (c : Char) : Bool := (Text.hexValue? c).isSome
  let decimal : Option ((Magnitude × Bool) × List Char) :=
    let (whole, fraction, rest) := pointedDigits Char.isDigit s
    if whole.isEmpty && fraction.isEmpty then none
    else
      let (exponent, rest) := exponentAt 'e' 'E' rest
      let digits := valueOfDigits 10 (whole ++ fraction)
      some (scaledMagnitude digits 10 10 fraction.length exponent, rest)
  if beginsWith "infinity" s then some ((.infinite, false), s.drop 8)
  else if beginsWith "inf" s then some ((.infinite, false), s.drop 3)
  else if beginsWith "nan" s then some ((.notNumber, false), s.drop 3)
  else if beginsWith "0x" s then
    let (whole, fraction, rest) := pointedDigits isHex (s.drop 2)
    if whole.isEmpty && fraction.isEmpty then some ((.finite 0 0, false), s.drop 1)
    else
      let (exponent, rest) := exponentAt 'p' 'P' rest
      let digits := valueOfDigits 16 (whole ++ fraction)
      some (scaledMagnitude digits 16 2 fraction.length exponent, rest)
  else decimal

/-! ## Writing -/

/-- What a double is as a quotient. -/
def quotientOf (significand : Nat) (exponent : Int) : Nat × Nat :=
  (significand * Nat.pow 2 exponent.toNat, Nat.pow 2 (-exponent).toNat)

def paddedDigits (count : Nat) (n : Nat) : List Char :=
  let digits := Nat.toDigits 10 n
  List.replicate (count - digits.length) '0' ++ digits

/-- Digits with a point before the last `places` of them. -/
def withPoint (keepPoint : Bool) (places : Nat) (digits : List Char) : List Char :=
  let whole := digits.take (digits.length - places)
  let fraction := digits.drop (digits.length - places)
  if fraction.isEmpty && !keepPoint then whole else whole ++ '.' :: fraction

def fixedText (keepPoint : Bool) (places : Nat) (q : Nat × Nat) : List Char :=
  let n := roundedQuotient (q.1 * Nat.pow 10 places) q.2
  withPoint keepPoint places (paddedDigits (places + 1) n)

/-- The digits of a quotient, one and `places` more, and the power of ten of the first one. -/
def leadingDigits (places : Nat) (q : Nat × Nat) : Nat × Int :=
  if q.1 = 0 then (0, 0)
  else
    let whole := q.1 / q.2
    let power : Int :=
      if whole = 0 then
        -(((List.range 400).find? fun n => q.2 ≤ q.1 * Nat.pow 10 n).getD 0 : Nat)
      else ((Nat.toDigits 10 whole).length : Int) - 1
    let shift : Int := (places : Int) - power
    let n := roundedQuotient (q.1 * Nat.pow 10 shift.toNat) (q.2 * Nat.pow 10 (-shift).toNat)
    if n = Nat.pow 10 (places + 1) then (Nat.pow 10 places, power + 1) else (n, power)

def exponentText (letter : Char) (least : Nat) (power : Int) : List Char :=
  letter :: (if power < 0 then '-' else '+') :: paddedDigits least power.natAbs

def exponentForm (keepPoint : Bool) (places : Nat) (q : Nat × Nat) : List Char :=
  let (digits, power) := leadingDigits places q
  withPoint keepPoint places (paddedDigits (places + 1) digits) ++ exponentText 'e' 2 power

/-- A number without zeros at the end of its places, and without a point at its end unless that is
kept. -/
def dropPlaces (keepPoint : Bool) (s : List Char) : List Char :=
  if !s.contains '.' then s
  else
    let kept := (s.reverse.dropWhile (· == '0')).reverse
    if kept.getLast? = some '.' && !keepPoint then kept.dropLast else kept

/-- A quotient with so many digits, in the form that its size asks for. -/
def shorterForm (keepZeros : Bool) (digits : Nat) (q : Nat × Nat) : List Char :=
  let digits := max digits 1
  let (_, power) := leadingDigits (digits - 1) q
  if -4 ≤ power && power < digits then
    let text := fixedText keepZeros ((digits : Int) - 1 - power).toNat q
    if keepZeros then text else dropPlaces false text
  else
    let text := exponentForm keepZeros (digits - 1) q
    let mantissa := text.takeWhile (· != 'e')
    (if keepZeros then mantissa else dropPlaces false mantissa) ++ text.drop mantissa.length

/-- A double in base sixteen, with so many places or as many as it needs. -/
def hexadecimalForm (keepPoint : Bool) (places : Option Nat) (significand : Nat) (exponent : Int) :
    List Char :=
  let (first, fraction, power) : Nat × Nat × Int :=
    if significand = 0 then (0, 0, 0)
    else
      let shift := 52 - Nat.log2 significand
      let isSmall := exponent - (shift : Int) < -1074
      if isSmall then (0, significand, -1022)
      else
        let n := significand * Nat.pow 2 shift
        (1, n - Nat.pow 2 52, exponent - (shift : Int) + 52)
  let all := first * Nat.pow 2 52 + fraction
  let kept := min (places.getD 13) 13
  let n := roundedQuotient all (Nat.pow 16 (13 - kept))
  let digits := Nat.toDigits 16 n
  let digits := List.replicate (kept + 1 - digits.length) '0' ++ digits
  let text := withPoint keepPoint kept digits ++
    List.replicate (places.getD 13 - kept) '0'
  let text := if places.isNone then dropPlaces keepPoint text else text
  text ++ 'p' :: (if power < 0 then '-' else '+') :: Nat.toDigits 10 power.natAbs

def Magnitude.text (letter : Char) (keepPoint : Bool) (precision : Option Nat) :
    Magnitude → List Char
  | .notNumber => ['n', 'a', 'n']
  | .infinite => ['i', 'n', 'f']
  | .finite significand exponent =>
    let q := quotientOf significand exponent
    let places := precision.getD 6
    match letter with
    | 'f' => fixedText keepPoint places q
    | 'e' => exponentForm keepPoint places q
    | 'g' => shorterForm keepPoint places q
    | _ => hexadecimalForm keepPoint precision significand exponent

end SymbolAtlas.Shell
