import SymbolAtlas.Text.Blank

namespace SymbolAtlas.Text

/-- The number that the digits `s` write after the digits of `acc`. -/
def digitsValue (acc : Nat) : List Char → Option Nat
  | [] => some acc
  | c :: rest =>
    if c.isDigit then digitsValue (acc * 10 + (c.toNat - '0'.toNat)) rest else none

/-- A 32-bit number: digits with an optional plus sign, without overflow. -/
def readU32 (s : List Char) : Option UInt32 :=
  let digits := match s with
    | '+' :: rest => rest
    | _ => s
  if digits.isEmpty then none
  else (digitsValue 0 digits).bind fun n => if n < UInt32.size then some n.toUInt32 else none

/-- A whole number with an optional minus sign. -/
def readInt (s : List Char) : Option Int :=
  match s with
  | '-' :: digits => if digits.isEmpty then none else (digitsValue 0 digits).map fun n => -(n : Int)
  | digits => if digits.isEmpty then none else (digitsValue 0 digits).map fun n => (n : Int)

end SymbolAtlas.Text
