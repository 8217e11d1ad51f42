import SymbolAtlas.Text.Utf8

/-!
# Bytewise text

A script and all its values are sequences of bytes. They are kept as texts in which every character
stands for one byte, so that a wildcard takes one byte and bytes that are no UTF-8 stay what they
are.

* `toBytes_ofBytes`: nothing is lost.
-/

namespace SymbolAtlas.Shell

def ofBytes (bytes : Bytes) : String :=
  String.ofList (bytes.map fun b => Char.ofNat b.toNat)

def toBytes (s : String) : Bytes :=
  s.toList.map fun c => UInt8.ofNat c.toNat

theorem byte_of_char (b : UInt8) : UInt8.ofNat (Char.ofNat b.toNat).toNat = b := by
  have small : b.toNat < 256 := b.toNat_lt
  have valid : b.toNat.isValidChar := Or.inl (by omega)
  have same : (Char.ofNat b.toNat).toNat = b.toNat := by
    rw [Char.ofNat, dif_pos valid]
    rfl
  rw [same]
  simp

theorem toBytes_ofBytes (bytes : Bytes) : toBytes (ofBytes bytes) = bytes := by
  simp [toBytes, ofBytes, List.map_map, Function.comp_def, byte_of_char]

/-- A text by its bytes. -/
def ofText (s : String) : String :=
  ofBytes (Text.bytesOfText s)

/-- The text that bytes write, with a replacement character for what is not UTF-8. -/
def toText (s : String) : String :=
  Text.textOfBytes (toBytes s)

end SymbolAtlas.Shell
