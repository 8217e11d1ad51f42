import SymbolAtlas.Text.Quoted

/-!
# Shortest decimals

The decimal with the fewest digits that reads back as a given double, found by exact arithmetic. The
reals that round to a double form an interval. On the grids of one digit, two digits and so on, the
neighbours of the double are tried, and the first grid with a neighbour in the interval wins.
-/

namespace SymbolAtlas

/-- The number `digits · 10 ^ exponent`. -/
structure Decimal where
  digits : Nat
  exponent : Int
  deriving DecidableEq, Inhabited

/-- A positive finite double and the interval of the reals that round to it, as multiples of
`1 / unit`. -/
structure Rounding where
  value : Nat
  low : Nat
  high : Nat
  unit : Nat
  /-- Whether the ends of the interval round to the double as well. -/
  closed : Bool

namespace Rounding

/-- The rounding interval of `significand · 2 ^ exponent`. In quarters of the last place the ends are
two away, and one below where the doubles become denser. -/
def ofBinary (significand : Nat) (exponent : Int) (denserBelow : Bool) : Rounding :=
  let up := Nat.pow 2 (exponent - 2).toNat
  let m := 4 * significand
  { value := m * up, low := (if denserBelow then m - 1 else m - 2) * up, high := (m + 2) * up,
    unit := Nat.pow 2 (2 - exponent).toNat, closed := significand % 2 == 0 }

/-- The double with those bits, apart from its sign. -/
def ofBits (bits : UInt64) : Rounding :=
  let fraction := bits.toNat % Nat.pow 2 52
  let exponent := bits.toNat / Nat.pow 2 52 % 2048
  if exponent = 0 then ofBinary fraction (-1074) false
  else ofBinary (Nat.pow 2 52 + fraction) (exponent - 1075) (fraction == 0 && exponent != 1)

/-- The least `k` for which the value is below `10 ^ k`. -/
def magnitude (r : Rounding) : Int :=
  let whole := r.value / r.unit
  if whole = 0 then
    let places := (List.range 400).find? fun n => r.unit ≤ r.value * Nat.pow 10 n
    1 - (places.getD 0 : Nat)
  else (Nat.toDigits 10 whole).length

/-- Whether the decimal rounds to the double. -/
def holds (r : Rounding) (d : Decimal) : Bool :=
  let scaled := d.digits * Nat.pow 10 d.exponent.toNat * r.unit
  let shift := Nat.pow 10 (-d.exponent).toNat
  if r.closed then r.low * shift ≤ scaled && scaled ≤ r.high * shift
  else r.low * shift < scaled && scaled < r.high * shift

/-- The multiple of `10 ^ exponent` that is nearest to the double, of those that round to it. Of two
that are equally near the even one is taken. -/
def nearest? (r : Rounding) (exponent : Int) : Option Decimal :=
  let scaled := r.value * Nat.pow 10 (-exponent).toNat
  let step := r.unit * Nat.pow 10 exponent.toNat
  let below := scaled / step
  let first : Decimal := ⟨below, exponent⟩
  let second : Decimal := ⟨below + 1, exponent⟩
  let twice := 2 * (scaled % step)
  let preferSecond := step < twice || (twice == step && below % 2 == 1)
  match r.holds first, r.holds second with
  | true, true => some (if preferSecond then second else first)
  | true, false => some first
  | false, true => some second
  | false, false => none

end Rounding

namespace Decimal

/-- The same number without zeros at the end of its digits. The bound is on their number. -/
def dropZeros : Nat → Decimal → Decimal
  | 0, d => d
  | bound + 1, d =>
    if d.digits ≠ 0 && d.digits % 10 = 0 then dropZeros bound ⟨d.digits / 10, d.exponent + 1⟩ else d

/-- The shortest decimal that reads back as the positive double with those bits. Seventeen digits
are always enough. -/
def shortest (bits : UInt64) : Decimal :=
  let r := Rounding.ofBits bits
  let k := r.magnitude
  let found := (List.range 17).findSome? fun n : Nat => r.nearest? (k - (n + 1 : Nat))
  dropZeros 20 (found.getD ⟨0, 0⟩)

end Decimal

end SymbolAtlas
