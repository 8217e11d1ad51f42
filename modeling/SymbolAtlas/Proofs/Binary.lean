import SymbolAtlas.Binary

/-!
# Reading what was written

A reader *takes* a value from bytes when it gives the value and leaves exactly what follows the
bytes. Readers of the binary format take what the writers of the same name write, as long as the
lengths fit in 64 bits:

* `Takes.bind`: a reader made of two takes what the parts take, one after the other;
* `takes_writeInt`: every signed number reads back, the smallest one included;
* `takes_writeText`, `takes_writeList`: text and lists read back when what was written is shorter
  than 2^64 bytes.
-/

namespace SymbolAtlas.Binary

/-- `read` takes `value` from `bytes`, whatever follows them. -/
def Takes {α : Type} (read : Reader α) (bytes : Bytes) (value : α) : Prop :=
  ∀ rest, read (bytes ++ rest) = .ok (value, rest)

section
variable {α β : Type}

theorem takes_pure (value : α) : Takes (pure value) [] value :=
  fun _ => rfl

theorem Takes.bind {read : Reader α} {next : α → Reader β} {bytes more : Bytes} {a : α} {b : β}
    (h : Takes read bytes a) (hn : Takes (next a) more b) :
    Takes (read >>= next) (bytes ++ more) b := by
  intro rest
  calc (read >>= next) (bytes ++ more ++ rest)
      = (read (bytes ++ more ++ rest) >>= fun p => next p.1 p.2) := rfl
    _ = next a (more ++ rest) := by rw [List.append_assoc, h (more ++ rest)]; rfl
    _ = .ok (b, rest) := hn rest

/-- The last part of a reader gives a value and takes nothing more. -/
theorem Takes.returns {read : Reader α} {f : α → β} {bytes : Bytes} {a : α}
    (h : Takes read bytes a) : Takes (read >>= fun x => pure (f x)) bytes (f a) := by
  have happend : Takes (read >>= fun x => pure (f x)) (bytes ++ []) (f a) := h.bind (takes_pure (f a))
  rwa [List.append_nil] at happend

/-- Nothing has to follow what is taken. -/
theorem Takes.alone {read : Reader α} {bytes : Bytes} {value : α} (h : Takes read bytes value) :
    read bytes = .ok (value, []) := by
  have hr := h []
  rwa [List.append_nil] at hr

theorem Takes.all {read : Reader α} {bytes : Bytes} {value : α} (h : Takes read bytes value) :
    Reader.all read bytes = .ok value := by
  simp only [Reader.all, h.alone]

end

/-! ## Numbers -/

theorem takes_writeNat {n : Nat} (h : n < UInt64.size) : Takes readNat (writeNat n) n :=
  readNat_writeNat h

theorem writeNat_length_pos (n : Nat) : 0 < (writeNat n).length := by
  unfold writeNat
  split
  · exact Nat.one_pos
  · split
    · exact Nat.succ_pos _
    · split <;> exact Nat.succ_pos _

theorem takes_writeU32 (n : UInt32) : Takes readU32 (writeNat n.toNat) n := by
  have hn : n.toNat < UInt32.size := n.toNat_lt
  have hsize : n.toNat < UInt64.size := Nat.lt_trans hn (by decide)
  have h : Takes readU32 (writeNat n.toNat ++ []) n := by
    refine (takes_writeNat hsize).bind ?_
    rw [if_pos hn, Nat.toUInt32_eq, UInt32.ofNat_toNat]
    exact takes_pure n
  rwa [List.append_nil] at h

/-- The number of a kind reads back when there are so many kinds. -/
theorem takes_kind {index count : Nat} (hc : index < count) (hs : count ≤ UInt32.size) :
    Takes (readKind count) (writeNat index) index := by
  have hi : index.toUInt32.toNat = index := by
    simp only [Nat.toUInt32_eq, UInt32.toNat_ofNat']
    exact Nat.mod_eq_of_lt (Nat.lt_of_lt_of_le hc hs)
  have h := takes_writeU32 index.toUInt32
  rw [hi] at h
  have hk : Takes (readKind count) (writeNat index ++ []) index := by
    apply h.bind
    rw [if_pos (by rwa [hi]), hi]
    exact takes_pure index
  rwa [List.append_nil] at hk

theorem zigzag_lt (i : Int64) : zigzag i < UInt64.size := by
  have lo := i.le_toInt
  have hi := i.toInt_lt
  unfold zigzag
  split <;> simp only [UInt64.size] <;> omega

theorem unzigzag_zigzag (i : Int64) : unzigzag (zigzag i) = i := by
  by_cases h : 0 ≤ i.toInt
  · have hz : zigzag i = 2 * i.toInt.toNat := by rw [zigzag, if_pos h]
    have hmod : 2 * i.toInt.toNat % 2 = 0 := by omega
    have hval : ((2 * i.toInt.toNat / 2 : Nat) : Int) = i.toInt := by omega
    rw [unzigzag, hz, if_pos hmod, hval, Int64.ofInt_toInt]
  · have hz : zigzag i = 2 * (-i.toInt).toNat - 1 := by rw [zigzag, if_neg h]
    have hmod : ¬ (2 * (-i.toInt).toNat - 1) % 2 = 0 := by omega
    have hval : -(((2 * (-i.toInt).toNat - 1) / 2 : Nat) : Int) - 1 = i.toInt := by omega
    rw [unzigzag, hz, if_neg hmod, hval, Int64.ofInt_toInt]

theorem takes_writeInt (i : Int64) : Takes readInt (writeInt i) i := by
  have h : Takes readInt (writeInt i) (unzigzag (zigzag i)) := (takes_writeNat (zigzag_lt i)).returns
  rwa [unzigzag_zigzag] at h

theorem takes_writeDouble (bits : UInt64) : Takes readDouble (writeDouble bits) bits := by
  have hf : Takes (readFixed 8) (writeDouble bits) bits.toNat :=
    fun rest => readFixed_littleEndian 8 bits.toNat_lt rest
  have h : Takes readDouble (writeDouble bits) bits.toNat.toUInt64 := hf.returns
  rwa [Nat.toUInt64_eq, UInt64.ofNat_toNat] at h

theorem takes_writeBool (b : Bool) : Takes readBool (writeBool b) b := by
  intro rest
  cases b <;> rfl

/-! ## Text and lists -/

theorem takes_textOf (s : String) :
    Takes (readTextOf (Text.bytesOfText s).length) (Text.bytesOfText s) s := by
  intro rest
  have hlen : ¬ (Text.bytesOfText s ++ rest).length < (Text.bytesOfText s).length := by simp
  rw [readTextOf, if_neg hlen, List.take_left, List.drop_left, Text.textOfBytes?_bytesOfText]

theorem takes_writeText {s : String} (h : (writeText s).length < UInt64.size) :
    Takes readText (writeText s) s := by
  refine (takes_writeNat ?_).bind (takes_textOf s)
  simp only [writeText, List.length_append] at h
  omega

theorem writeText_length_pos (s : String) : 0 < (writeText s).length := by
  simp only [writeText, List.length_append]
  have := writeNat_length_pos (Text.bytesOfText s).length
  omega

section
variable {α : Type} {read : Reader α} {write : α → Bytes}

theorem takes_items {items : List α} (h : ∀ a ∈ items, Takes read (write a) a) :
    Takes (readItems read items.length) (items.flatMap write) items := by
  induction items with
  | nil => exact takes_pure []
  | cons a rest ih =>
    have ha := h a List.mem_cons_self
    have hrest := ih fun b hb => h b (List.mem_cons_of_mem a hb)
    rw [List.flatMap_cons]
    exact ha.bind hrest.returns

/-- Items that take a byte each cannot be more than the bytes they take. -/
theorem length_le_flatMap {items : List α} (h : ∀ a ∈ items, 0 < (write a).length) :
    items.length ≤ (items.flatMap write).length := by
  induction items with
  | nil => exact Nat.le_refl _
  | cons a rest ih =>
    have ha := h a List.mem_cons_self
    have hrest := ih fun b hb => h b (List.mem_cons_of_mem a hb)
    rw [List.flatMap_cons, List.length_append, List.length_cons]
    omega

theorem item_length_le (write : α → Bytes) {items : List α} {a : α} (h : a ∈ items) :
    (write a).length ≤ (items.flatMap write).length := by
  obtain ⟨before, after, rfl⟩ := List.append_of_mem h
  simp only [List.flatMap_append, List.flatMap_cons, List.length_append]
  omega

theorem takes_writeList {items : List α} (hpos : ∀ a ∈ items, 0 < (write a).length)
    (hlen : (writeList write items).length < UInt64.size)
    (h : ∀ a ∈ items, (write a).length < UInt64.size → Takes read (write a) a) :
    Takes (readList read) (writeList write items) items := by
  simp only [writeList, List.length_append] at hlen
  have hcount := length_le_flatMap hpos
  refine (takes_writeNat (by omega)).bind (takes_items fun a ha => h a ha ?_)
  have hitem := item_length_le write ha
  omega

end

theorem takes_writeTexts (items : List String)
    (hs : (writeList writeText items).length < UInt64.size) :
    Takes (readList readText) (writeList writeText items) items :=
  takes_writeList (fun s _ => writeText_length_pos s) hs fun _ _ => takes_writeText

end SymbolAtlas.Binary
