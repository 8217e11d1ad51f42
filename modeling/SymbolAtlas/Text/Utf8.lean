/-!
# UTF-8

Bytes as text. Core's strings are valid UTF-8 by type, so reading and writing are its own functions
(`textOfBytes?`, `bytesOfText`). This module adds what they do not say: where bytes stop being UTF-8,
and what is shown in place of the bytes that are not.

* `textOfBytes?_bytesOfText`, `bytesOfText_of_textOfBytes?`: reading and writing are inverse.
-/

namespace SymbolAtlas

abbrev Bytes := List UInt8

namespace Text

def bytesOfText (s : String) : Bytes :=
  s.toUTF8.data.toList

def textOfBytes? (bytes : Bytes) : Option String :=
  String.fromUTF8? ⟨bytes.toArray⟩

@[simp] theorem textOfBytes?_bytesOfText (s : String) : textOfBytes? (bytesOfText s) = some s := by
  have h : (⟨(bytesOfText s).toArray⟩ : ByteArray) = s.toByteArray := rfl
  rw [textOfBytes?, h, String.fromUTF8?, dif_pos s.isValidUTF8]
  rfl

theorem bytesOfText_of_textOfBytes? {bytes : Bytes} {s : String} (h : textOfBytes? bytes = some s) :
    bytesOfText s = bytes := by
  unfold textOfBytes? String.fromUTF8? at h
  split at h
  · simp only [Option.some.injEq] at h
    subst h
    rfl
  · simp at h

/-- One step of reading UTF-8: a whole character of some width, a number of bytes that begin no
character, or the beginning of a character that the bytes end in. -/
inductive Octets
  | whole (width : Nat)
  | stray (width : Nat)
  | cut
  deriving DecidableEq

/-- A byte that continues a character. -/
def isContinuation (b : UInt8) : Bool :=
  0x80 ≤ b && b ≤ 0xBF

/-- Whether `second` may follow `first` in a character of three bytes. -/
def secondOfThree (first second : UInt8) : Bool :=
  if first = 0xE0 then 0xA0 ≤ second && second ≤ 0xBF
  else if first = 0xED then 0x80 ≤ second && second ≤ 0x9F
  else isContinuation second

/-- Whether `second` may follow `first` in a character of four bytes. -/
def secondOfFour (first second : UInt8) : Bool :=
  if first = 0xF0 then 0x90 ≤ second && second ≤ 0xBF
  else if first = 0xF4 then 0x80 ≤ second && second ≤ 0x8F
  else isContinuation second

/-- The steps in which bytes are read as UTF-8. -/
def octets : Bytes → List Octets
  | [] => []
  | a :: rest =>
    if a < 0x80 then .whole 1 :: octets rest
    else if a < 0xC2 then .stray 1 :: octets rest
    else if a < 0xE0 then
      match rest with
      | [] => [.cut]
      | b :: rest₂ =>
        if isContinuation b then .whole 2 :: octets rest₂ else .stray 1 :: octets (b :: rest₂)
    else if a < 0xF0 then
      match rest with
      | [] => [.cut]
      | b :: rest₂ =>
        if !secondOfThree a b then .stray 1 :: octets (b :: rest₂)
        else match rest₂ with
          | [] => [.cut]
          | c :: rest₃ =>
            if isContinuation c then .whole 3 :: octets rest₃ else .stray 2 :: octets (c :: rest₃)
    else if a < 0xF5 then
      match rest with
      | [] => [.cut]
      | b :: rest₂ =>
        if !secondOfFour a b then .stray 1 :: octets (b :: rest₂)
        else match rest₂ with
          | [] => [.cut]
          | c :: rest₃ =>
            if !isContinuation c then .stray 2 :: octets (c :: rest₃)
            else match rest₃ with
              | [] => [.cut]
              | d :: rest₄ =>
                if isContinuation d then .whole 4 :: octets rest₄
                else .stray 3 :: octets (d :: rest₄)
    else .stray 1 :: octets rest

/-- Why bytes are not UTF-8, with the number of good bytes in front. -/
inductive Utf8Fault
  | stray (width index : Nat)
  | cut (index : Nat)
  deriving DecidableEq

namespace Utf8Fault

def message : Utf8Fault → String
  | stray width index =>
    s!"invalid utf-8 sequence of {width} bytes from index {index}"
  | cut index => s!"incomplete utf-8 byte sequence from index {index}"

/-- The first fault in `steps`, which begin at `index`. -/
def first? (index : Nat) : List Octets → Option Utf8Fault
  | [] => none
  | .whole width :: rest => first? (index + width) rest
  | .stray width :: _ => some (stray width index)
  | .cut :: _ => some (cut index)

end Utf8Fault

/-- The first place where bytes are not UTF-8. -/
def utf8Fault? (bytes : Bytes) : Option Utf8Fault :=
  Utf8Fault.first? 0 (octets bytes)

/-- The bytes with a replacement character in place of each step that is no whole character. -/
def repaired (bytes : Bytes) : List Octets → Bytes
  | [] => []
  | .whole width :: rest => bytes.take width ++ repaired (bytes.drop width) rest
  | .stray width :: rest => [0xEF, 0xBF, 0xBD] ++ repaired (bytes.drop width) rest
  | .cut :: _ => [0xEF, 0xBF, 0xBD]

/-- Bytes as text, with a replacement character for what is not UTF-8. -/
def textOfBytes (bytes : Bytes) : String :=
  (textOfBytes? (repaired bytes (octets bytes))).getD ""

end Text

end SymbolAtlas
