import SymbolAtlas.Text.Utf8

/-!
# The binary format

How numbers, text, lists and tagged values are laid out as bytes. An unsigned number up to 250 is one
byte; a larger one is a mark byte 251, 252 or 253 and then two, four or eight bytes, least
significant first. Text and lists begin with their length. A value of several kinds begins with the
number of its kind.

A reader takes bytes from the front and leaves the rest. `Reader.all` accepts bytes that one reader
uses up.

* `ofLittleEndian_littleEndian`: fixed-width numbers read back;
* `readNat_writeNat`: a number below 2^64 reads back, whatever follows it.
-/

namespace SymbolAtlas.Binary

inductive Fault
  | numberCut
  | textCut
  | numberTooWide
  | reservedByte
  | notU32 (n : Nat)
  | notBool (byte : UInt8)
  | notKind (index count : Nat)
  | notText (fault : Text.Utf8Fault)
  | leftOver
  deriving DecidableEq

namespace Fault

def message : Fault → String
  | numberCut => "io error: unexpected end of file"
  | textCut => "io error: "
  | numberTooWide =>
    "Invalid value (u128 range): you may have a version or configuration disagreement?"
  | reservedByte =>
    "\nByte 255 is treated as an extension point; it should not be encoding anything.\n" ++
      "Do you have a mismatched bincode version or configuration?\n"
  | notU32 n => s!"Invalid u32 {n}: you may have a version disagreement?"
  | notBool byte => s!"invalid u8 while decoding bool, expected 0 or 1, found {byte.toNat}"
  | notKind index count =>
    s!"invalid value: integer `{index}`, expected variant index 0 <= i < {count}"
  | notText fault => "string is not valid utf8: " ++ fault.message
  | leftOver => "Slice had bytes remaining after deserialization"

end Fault

/-- The lowest `width` bytes of a number, least significant first. -/
def littleEndian : Nat → Nat → Bytes
  | 0, _ => []
  | width + 1, n => n.toUInt8 :: littleEndian width (n / 256)

def ofLittleEndian : Bytes → Nat
  | [] => 0
  | b :: rest => b.toNat + 256 * ofLittleEndian rest

@[simp] theorem length_littleEndian (width n : Nat) : (littleEndian width n).length = width := by
  induction width generalizing n with
  | zero => rfl
  | succ width ih => simp [littleEndian, ih]

theorem ofLittleEndian_littleEndian {width n : Nat} (h : n < Nat.pow 256 width) :
    ofLittleEndian (littleEndian width n) = n := by
  induction width generalizing n with
  | zero =>
    have : n = 0 := Nat.lt_one_iff.1 h
    subst this
    rfl
  | succ width ih =>
    have hdiv : n / 256 < Nat.pow 256 width := by
      rw [Nat.div_lt_iff_lt_mul (by decide)]
      exact h
    have hbyte : n.toUInt8.toNat = n % 256 := by simp
    simp only [littleEndian, ofLittleEndian, hbyte, ih hdiv]
    omega

/-! ## Writing -/

def writeNat (n : Nat) : Bytes :=
  if n ≤ 250 then [n.toUInt8]
  else if n < UInt16.size then 251 :: littleEndian 2 n
  else if n < UInt32.size then 252 :: littleEndian 4 n
  else 253 :: littleEndian 8 n

/-- Signed numbers alternate with unsigned ones: 0, -1, 1, -2, 2 are 0, 1, 2, 3, 4. -/
def zigzag (i : Int64) : Nat :=
  if 0 ≤ i.toInt then 2 * i.toInt.toNat else 2 * (-i.toInt).toNat - 1

def writeInt (i : Int64) : Bytes :=
  writeNat (zigzag i)

def writeDouble (bits : UInt64) : Bytes :=
  littleEndian 8 bits.toNat

def writeBool (b : Bool) : Bytes :=
  [if b then 1 else 0]

def writeText (s : String) : Bytes :=
  let bytes := Text.bytesOfText s
  writeNat bytes.length ++ bytes

def writeList {α : Type} (write : α → Bytes) (items : List α) : Bytes :=
  writeNat items.length ++ items.flatMap write

/-! ## Reading -/

/-- Takes a value from the front of bytes. -/
abbrev Reader := StateT Bytes (Except Fault)

def fail {α : Type} (fault : Fault) : Reader α :=
  fun _ => .error fault

def readByte : Reader UInt8 := fun
  | [] => .error .numberCut
  | b :: rest => .ok (b, rest)

/-- A number of `width` bytes, least significant first. -/
def readFixed (width : Nat) : Reader Nat := fun bytes =>
  if bytes.length < width then .error .numberCut
  else .ok (ofLittleEndian (bytes.take width), bytes.drop width)

/-- Longer forms of a small number are accepted. -/
def readNat : Reader Nat := fun
  | [] => .error .numberCut
  | b :: rest =>
    if b ≤ 250 then .ok (b.toNat, rest)
    else if b = 251 then readFixed 2 rest
    else if b = 252 then readFixed 4 rest
    else if b = 253 then readFixed 8 rest
    else if b = 254 then .error .numberTooWide
    else .error .reservedByte

def readU32 : Reader UInt32 := do
  let n ← readNat
  if n < UInt32.size then return n.toUInt32 else fail (.notU32 n)

/-- The number of a kind, of `count` kinds. -/
def readKind (count : Nat) : Reader Nat := do
  let index ← readU32
  if index.toNat < count then return index.toNat else fail (.notKind index.toNat count)

/-- The signed number whose `zigzag` is `n`. -/
def unzigzag (n : Nat) : Int64 :=
  if n % 2 = 0 then Int64.ofInt (n / 2 : Nat) else Int64.ofInt (-((n / 2 : Nat) : Int) - 1)

def readInt : Reader Int64 := do
  return unzigzag (← readNat)

def readDouble : Reader UInt64 := do
  return (← readFixed 8).toUInt64

def readBool : Reader Bool := do
  let b ← readByte
  if b = 0 then return false else if b = 1 then return true else fail (.notBool b)

/-- The next `length` bytes as text. That they are there is checked before that they are UTF-8. -/
def readTextOf (length : Nat) : Reader String := fun bytes =>
  if bytes.length < length then .error .textCut
  else match Text.textOfBytes? (bytes.take length) with
    | some s => .ok (s, bytes.drop length)
    | none => .error (.notText ((Text.utf8Fault? (bytes.take length)).getD (.cut 0)))

def readText : Reader String := do
  readTextOf (← readNat)

/-- The next `count` values. Every value takes at least one byte, so a count that is too large ends
with the bytes. -/
def readItems {α : Type} (read : Reader α) : Nat → Reader (List α)
  | 0 => pure []
  | count + 1 => do
    let item ← read
    let items ← readItems read count
    return item :: items

def readList {α : Type} (read : Reader α) : Reader (List α) := do
  readItems read (← readNat)

/-- Reads bytes that hold one value and nothing more. -/
def Reader.all {α : Type} (read : Reader α) (bytes : Bytes) : Except Fault α :=
  match read bytes with
  | .ok (value, []) => .ok value
  | .ok (_, _ :: _) => .error .leftOver
  | .error fault => .error fault

theorem readFixed_littleEndian (width : Nat) {n : Nat} (h : n < Nat.pow 256 width) (rest : Bytes) :
    readFixed width (littleEndian width n ++ rest) = .ok (n, rest) := by
  have htake : (littleEndian width n ++ rest).take width = littleEndian width n :=
    List.take_left' (length_littleEndian width n)
  have hdrop : (littleEndian width n ++ rest).drop width = rest :=
    List.drop_left' (length_littleEndian width n)
  have hlen : ¬ (littleEndian width n ++ rest).length < width := by simp
  rw [readFixed, if_neg hlen, htake, hdrop, ofLittleEndian_littleEndian h]

theorem readNat_writeNat {n : Nat} (h : n < UInt64.size) (rest : Bytes) :
    readNat (writeNat n ++ rest) = .ok (n, rest) := by
  unfold writeNat
  split
  · rename_i hn
    have hbyte : n.toUInt8.toNat = n := by
      have : n.toUInt8.toNat = n % 256 := by simp
      omega
    have hle : n.toUInt8 ≤ 250 := by
      rw [UInt8.le_iff_toNat_le, hbyte]
      exact hn
    simp [readNat, hle, hbyte]
  · split
    · rename_i hn
      exact readFixed_littleEndian 2 hn rest
    · split
      · rename_i hn
        exact readFixed_littleEndian 4 hn rest
      · exact readFixed_littleEndian 8 h rest

end SymbolAtlas.Binary
