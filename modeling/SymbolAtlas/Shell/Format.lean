import SymbolAtlas.Shell.Bytewise
import SymbolAtlas.Shell.Double
import SymbolAtlas.Text.Quoted

namespace SymbolAtlas.Shell

/-- Bytes to write. Output that is stopped is not followed by anything. -/
structure Written where
  bytes : Bytes := []
  stopped : Bool := false
  deriving Inhabited

namespace Written

def ofChars (s : List Char) : Written :=
  { bytes := toBytes (String.ofList s) }

def followedBy (a b : Written) : Written :=
  if a.stopped then a else ⟨a.bytes ++ b.bytes, b.stopped⟩

end Written

/-- The backslash sequences of a writer beyond those that all writers know. -/
structure EscapeStyle where
  /-- `\c` ends the output. -/
  stops : Bool := true
  /-- An octal number may have a zero before its three digits. -/
  zeroFirst : Bool := true
  /-- `\x` with two digits in base sixteen. -/
  hexadecimal : Bool := false
  /-- A double quote stands for itself. -/
  quotes : Bool := false
  /-- A sequence that is not known stands for both its characters, else for the backslash. -/
  keepsUnknown : Bool := true

/-- The sequences of a single letter. -/
def escapedLetter? : Char → Option Char
  | 'a' => some '\x07'
  | 'b' => some '\x08'
  | 'e' => some '\x1b'
  | 'f' => some '\x0c'
  | 'n' => some '\n'
  | 'r' => some '\r'
  | 't' => some '\t'
  | 'v' => some '\x0b'
  | '\\' => some '\\'
  | _ => none

def isOctal (c : Char) : Bool :=
  '0' ≤ c && c ≤ '7'

def byteOf (base : Nat) (digits : List Char) : UInt8 :=
  UInt8.ofNat (digits.foldl (fun n c => n * base + (Text.hexValue? c).getD 0) 0)

/-- What the text after a backslash begins with, and how many of its characters belong to that. -/
def escapeAt (style : EscapeStyle) (s : List Char) : Written × Nat :=
  match s with
  | [] => (.ofChars ['\\'], 0)
  | c :: rest =>
    if isOctal c then
      let digits :=
        if c = '0' && style.zeroFirst then c :: (rest.take 3).takeWhile isOctal
        else (s.take 3).takeWhile isOctal
      ({ bytes := [byteOf 8 digits] }, digits.length)
    else if c = 'c' && style.stops then ({ stopped := true }, 1)
    else if c = 'x' && style.hexadecimal then
      let digits := (rest.take 2).takeWhile fun c => (Text.hexValue? c).isSome
      if digits.isEmpty then (.ofChars ['\\', 'x'], 1)
      else ({ bytes := [byteOf 16 digits] }, 1 + digits.length)
    else if c = '"' && style.quotes then (.ofChars ['"'], 1)
    else match escapedLetter? c with
      | some letter => (.ofChars [letter], 1)
      | none => if style.keepsUnknown then (.ofChars ['\\', c], 1) else (.ofChars ['\\'], 0)

/-- A text with its backslash sequences replaced, read in at most `steps` steps. -/
def unescapeIn (style : EscapeStyle) : Nat → List Char → Written
  | 0, _ => {}
  | _, [] => {}
  | steps + 1, '\\' :: rest =>
    let (first, count) := escapeAt style rest
    first.followedBy (unescapeIn style steps (rest.drop count))
  | steps + 1, c :: rest => (Written.ofChars [c]).followedBy (unescapeIn style steps rest)

def unescape (style : EscapeStyle) (s : String) : Written :=
  unescapeIn style s.length s.toList

/-! ## Patterns with arguments -/

/-- A place for an argument in a pattern. -/
structure Slot where
  leftAligned : Bool := false
  zeros : Bool := false
  plus : Bool := false
  space : Bool := false
  /-- Whether a number shows its base or its point. -/
  based : Bool := false
  width : Nat := 0
  precision : Option Nat := none

namespace Slot

def addFlag (p : Slot) : Char → Slot
  | '-' => { p with leftAligned := true }
  | '0' => { p with zeros := true }
  | '+' => { p with plus := true }
  | ' ' => { p with space := true }
  | '#' => { p with based := true }
  | _ => p

/-- The place with at least so many digits. -/
def withDigits (p : Slot) (count : Nat) : Slot :=
  { p with precision := p.precision.map (max count) }

/-- Bytes at the width of the place. -/
def pad (p : Slot) (bytes : Bytes) : Bytes :=
  let blanks := List.replicate (p.width - bytes.length) (0x20 : UInt8)
  if p.leftAligned then bytes ++ blanks else blanks ++ bytes

/-- A number with its sign at the width of the place. -/
def padNumber (p : Slot) (sign : List Char) (digits : List Char) : Bytes :=
  let digits := if p.precision = some 0 && digits = ['0'] then [] else digits
  let digits := List.replicate (p.precision.getD 1 - digits.length) '0' ++ digits
  let missing := p.width - (sign.length + digits.length)
  let digits :=
    if p.zeros && !p.leftAligned && p.precision.isNone then List.replicate missing '0' ++ digits
    else digits
  p.pad (toBytes (String.ofList (sign ++ digits)))

end Slot

inductive Complaint
  | notNumeric (argument : String)
  | partlyNumeric (argument : String)
  | outOfRange (argument : String)
  /-- A place that there is not. -/
  | invalid (place : String)
  | unfinished
  /-- More than can be written at one place. -/
  | tooLong

namespace Complaint

def message : Complaint → String
  | notNumeric argument => argument ++ ": expected numeric value"
  | partlyNumeric argument => argument ++ ": not completely converted"
  | outOfRange argument => argument ++ ": Numerical result out of range"
  | invalid place => place ++ ": invalid directive"
  | unfinished => "missing format character"
  | tooLong => "xvsnprintf failed"

def isFatal : Complaint → Bool
  | invalid _ | unfinished | tooLong => true
  | _ => false

end Complaint

/-- A number and what is wrong with the argument that writes it. -/
structure Numeral where
  value : Int := 0
  complaints : List Complaint := []

/-- The number at the front of a text, with the text after it: decimal, octal after a zero, or in
base sixteen after `0x`. -/
def numeralAt (s : List Char) : Option (Nat × List Char) :=
  let value (base : Nat) (digits : List Char) : Nat :=
    digits.foldl (fun n c => n * base + (Text.hexValue? c).getD 0) 0
  let hexadecimal (zero : List Char) (rest : List Char) : Option (Nat × List Char) :=
    let digits := rest.takeWhile fun c => (Text.hexValue? c).isSome
    if digits.isEmpty then some (0, zero) else some (value 16 digits, rest.drop digits.length)
  match s with
  | '0' :: 'x' :: rest => hexadecimal ('x' :: rest) rest
  | '0' :: 'X' :: rest => hexadecimal ('X' :: rest) rest
  | '0' :: rest =>
    let digits := rest.takeWhile isOctal
    some (value 8 digits, rest.drop digits.length)
  | _ =>
    let digits := s.takeWhile Char.isDigit
    if digits.isEmpty then none else some (value 10 digits, s.drop digits.length)

def isSpace (c : Char) : Bool :=
  c == ' ' || ('\t' ≤ c && c ≤ '\r')

/-- The number that an argument writes, between two bounds, or the code of the byte after a quote. -/
def numeralOf (least greatest : Int) (argument : String) : Numeral :=
  let s := argument.toList.dropWhile isSpace
  let (negative, digits) := match s with
    | '-' :: rest => (true, rest)
    | '+' :: rest => (false, rest)
    | _ => (false, s)
  match argument.toList with
  | '"' :: rest => { value := (rest.head?.elim 0 Char.toNat : Nat) }
  | '\'' :: rest => { value := (rest.head?.elim 0 Char.toNat : Nat) }
  | _ =>
    match numeralAt digits with
    | none => { complaints := if argument.isEmpty then [] else [.notNumeric argument] }
    | some (n, rest) =>
      let value := if negative then -(n : Int) else n
      let kept := max least (min greatest value)
      let complaints :=
        if !rest.isEmpty then [.partlyNumeric argument]
        else if kept ≠ value then [.outOfRange argument] else []
      { value := kept, complaints }

def signedNumeral : String → Numeral :=
  numeralOf (-0x8000000000000000) 0x7fffffffffffffff

/-- A number without a sign; a negative one is counted down from the end of the range. -/
def unsignedNumeral (argument : String) : Numeral :=
  let n := numeralOf (-0xffffffffffffffff) 0xffffffffffffffff argument
  { n with value := if n.value < 0 then n.value + 0x10000000000000000 else n.value }

/-- A double and what is wrong with the argument that writes it. -/
def doubleOf (argument : String) : Double × List Complaint :=
  let s := argument.toList.dropWhile isSpace
  let (negative, digits) := match s with
    | '-' :: rest => (true, rest)
    | '+' :: rest => (false, rest)
    | _ => (false, s)
  let ofCode (code : List Char) : Double × List Complaint :=
    ({ magnitude := .finite (code.head?.elim 0 Char.toNat) 0 }, [])
  match argument.toList with
  | '"' :: rest => ofCode rest
  | '\'' :: rest => ofCode rest
  | _ =>
    match magnitudeAt? digits with
    | none => ({}, if argument.isEmpty then [] else [.notNumeric argument])
    | some ((magnitude, outOfRange), rest) =>
      ({ negative, magnitude },
        if !rest.isEmpty then [.partlyNumeric argument]
        else if outOfRange then [.outOfRange argument] else [])

namespace Slot

/-- The sign that a number shows. -/
def sign (p : Slot) (negative : Bool) : List Char :=
  if negative then ['-'] else if p.plus then ['+'] else if p.space then [' '] else []

/-- A double in a form at the width of the place. -/
def padDouble (p : Slot) (form : Char) (d : Double) : Bytes :=
  let letter := form.toLower
  let digits := d.magnitude.text letter p.based p.precision
  let isFinite := match d.magnitude with
    | .finite .. => true
    | _ => false
  let front := p.sign d.negative ++ (if letter = 'a' && isFinite then ['0', 'x'] else [])
  let missing := p.width - (front.length + digits.length)
  let zeros := if p.zeros && !p.leftAligned && isFinite then List.replicate missing '0' else []
  let text := front ++ zeros ++ digits
  p.pad (toBytes (String.ofList (if form.isUpper then text.map Char.toUpper else text)))

end Slot

/-- What a pattern writes, the arguments it leaves, and the complaints. -/
structure Filled where
  written : Written := {}
  left : List String := []
  complaints : List Complaint := []

/-- An argument in its place, by the letter of the place. -/
def fillPlace (p : Slot) (letter : Char) (argument : Option String) : Option Filled :=
  let text := argument.getD ""
  let inBase (base : Nat) (mark : String) (upper : Bool) : Option Filled :=
    let n := argument.elim {} unsignedNumeral
    let digits := Nat.toDigits base n.value.toNat
    let digits := if upper then digits.map Char.toUpper else digits
    let mark := if p.based && n.value ≠ 0 then mark.toList else []
    let isDigit := p.based && base = 8 && p.precision.isSome
    let p := if isDigit then p.withDigits (mark.length + digits.length) else p
    let mark := if isDigit then [] else mark
    some { written := { bytes := p.padNumber mark digits }, complaints := n.complaints }
  let cutText (bytes : Bytes) : Bytes := p.pad (bytes.take (p.precision.getD bytes.length))
  match letter with
  | 's' => some { written := { bytes := cutText (toBytes text) } }
  | 'b' =>
    let w := unescape {} text
    some { written := ⟨cutText w.bytes, w.stopped⟩ }
  | 'c' => some { written := { bytes := p.pad [(toBytes text).headD 0] } }
  | 'd' | 'i' =>
    let n := argument.elim {} signedNumeral
    let digits := Nat.toDigits 10 n.value.natAbs
    some { written := { bytes := p.padNumber (p.sign (n.value < 0)) digits },
           complaints := n.complaints }
  | 'u' => inBase 10 "" false
  | 'o' => inBase 8 "0" false
  | 'x' => inBase 16 "0x" false
  | 'X' => inBase 16 "0X" true
  | _ =>
    if ['a', 'e', 'f', 'g'].contains letter.toLower then
      let (d, complaints) := argument.elim ({}, []) doubleOf
      some { written := { bytes := p.padDouble letter d }, complaints }
    else none

/-- A width or a precision, with what follows it, the arguments that are left, and the complaints. -/
structure Size where
  value : Int
  rest : List Char
  left : List String
  complaints : List Complaint := []

/-- Takes a width or a precision, which a star takes from the arguments as a number of 32 bits. -/
def takeSize (s : List Char) (arguments : List String) : Size :=
  match s with
  | '*' :: rest =>
    let n := arguments.head?.elim {} signedNumeral
    { value := n.value.bmod 0x100000000, rest, left := arguments.tail, complaints := n.complaints }
  | _ =>
    let digits := s.takeWhile Char.isDigit
    let n : Nat := digits.foldl (fun n c => n * 10 + (c.toNat - '0'.toNat)) 0
    { value := n, rest := s.drop digits.length, left := arguments }

/-- Takes the place at the front, with what follows its sizes. A negative width aligns to the left. -/
def takeSlot (s : List Char) (arguments : List String) : Slot × Size :=
  let flags := s.takeWhile fun c => ['-', '0', '+', ' ', '#'].contains c
  let place := flags.foldl Slot.addFlag {}
  let width := takeSize (s.drop flags.length) arguments
  let place := { place with
    width := width.value.natAbs, leftAligned := place.leftAligned || width.value < 0 }
  match width.rest with
  | '.' :: rest =>
    let size := takeSize rest width.left
    ({ place with precision := if size.value < 0 then none else some size.value.toNat },
      { size with complaints := width.complaints ++ size.complaints })
  | _ => (place, width)

/-- Whether more is asked for than can be written at one place. -/
def Slot.isTooLong (p : Slot) : Bool :=
  0x80000000 ≤ p.width || 0x80000000 ≤ p.precision.getD 0

/-- One reading of a pattern, in at most `steps` steps. -/
def fillOnce (style : EscapeStyle) : Nat → List Char → List String → Filled
  | 0, _, arguments => { left := arguments }
  | _, [], arguments => { left := arguments }
  | steps + 1, c :: rest, arguments =>
    let go (first : Filled) (rest : List Char) (arguments : List String) : Filled :=
      let more := fillOnce style steps rest arguments
      if first.written.stopped then first
      else { more with written := first.written.followedBy more.written,
                       complaints := first.complaints ++ more.complaints }
    let plain (written : Written) : Filled := { written }
    let refuse (before : List Complaint) (complaint : Complaint) : Filled :=
      { written := { stopped := true }, complaints := before ++ [complaint] }
    if c = '\\' then
      let (first, count) := escapeAt style rest
      go (plain first) (rest.drop count) arguments
    else if c ≠ '%' then go (plain (.ofChars [c])) rest arguments
    else if rest.head? = some '%' then go (plain (.ofChars ['%'])) (rest.drop 1) arguments
    else
      let (place, size) := takeSlot rest arguments
      match size.rest with
      | letter :: next =>
        let fits := { place with width := 0, precision := none }
        match fillPlace (if place.isTooLong then fits else place) letter size.left.head? with
        | some filled =>
          let complaints := size.complaints ++ filled.complaints
          if place.isTooLong then refuse complaints .tooLong
          else go { filled with complaints } next size.left.tail
        | none =>
          refuse size.complaints
            (.invalid (String.ofList ('%' :: rest.take (rest.length - next.length))))
      | [] => refuse size.complaints .unfinished

/-- What a pattern writes. It is read again while it uses up arguments, which bounds the number of
readings; arguments are left if it has no place for any. -/
def fill (style : EscapeStyle) (pattern : List Char) : Nat → List String → Filled
  | 0, _ => {}
  | readings + 1, arguments =>
    let first := fillOnce style pattern.length pattern arguments
    if first.left.isEmpty || first.left.length = arguments.length then first
    else
      let more := fill style pattern readings first.left
      { written := first.written.followedBy more.written,
        complaints := first.complaints ++ more.complaints }

end SymbolAtlas.Shell
