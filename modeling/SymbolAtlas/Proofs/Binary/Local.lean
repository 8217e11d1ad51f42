import Mathlib.Algebra.GroupWithZero.Nat
import SymbolAtlas.Proofs.Binary
import SymbolAtlas.Proofs.Except

/-!
# Reading from front to back

A reader is *local* when the bytes after those that it takes make no difference to it. The readers of
the binary format are local, and what they take comes apart as they are put together.

* `Local.bind`, `Takes.parts`: two readers in a row, from the parts to the whole and back;
* `Local.all_eq_ok`: a local reader uses bytes up when it takes them;
* `Takes.writeNat_length_le`, `Takes.writeText_length_le`, `Takes.writeList_length_le`: nothing is
  read from fewer bytes than are written for it;
* `PrefixFree`: no file that is accepted begins another one.
-/

namespace SymbolAtlas.Binary

/-- What `read` gives depends only on the bytes that it takes. -/
def Local {α : Type} (read : Reader α) : Prop :=
  ∀ bytes value rest, read bytes = .ok (value, rest) →
    ∃ front, bytes = front ++ rest ∧ Takes read front value

section
variable {α β : Type} {read : Reader α} {next : α → Reader β} {bytes more : Bytes} {a : α} {b : β}

theorem local_pure (value : α) : Local (pure value) := by
  intro bytes _ _ h
  cases h
  exact ⟨[], rfl, takes_pure value⟩

theorem local_fail (fault : Fault) : Local (fail fault : Reader α) := by
  intro bytes value rest h
  cases h

theorem bind_eq_ok {rest : Bytes} : (read >>= next) bytes = .ok (b, rest) ↔
    ∃ a middle, read bytes = .ok (a, middle) ∧ next a middle = .ok (b, rest) :=
  except_bind_eq_ok.trans Prod.exists

theorem Local.bind (hread : Local read) (hnext : ∀ a, Local (next a)) : Local (read >>= next) := by
  intro bytes b rest h
  obtain ⟨a, middle, ha, hb⟩ := bind_eq_ok.1 h
  obtain ⟨front, rfl, hfront⟩ := hread _ _ _ ha
  obtain ⟨more, rfl, hmore⟩ := hnext a _ _ _ hb
  exact ⟨front ++ more, (List.append_assoc front more rest).symm, hfront.bind hmore⟩

/-- The last part of a reader gives a value and takes nothing more. -/
theorem Local.returns {f : α → β} (hread : Local read) : Local (read >>= fun x => pure (f x)) :=
  hread.bind fun x => local_pure (f x)

/-- What two readers in a row take is what the first one takes and then what the second one takes. -/
theorem Takes.parts (hread : Local read) (h : Takes (read >>= next) bytes b) :
    ∃ front more a, bytes = front ++ more ∧ Takes read front a ∧ Takes (next a) more b := by
  obtain ⟨a, middle, ha, -⟩ := bind_eq_ok.1 h.alone
  obtain ⟨front, rfl, hfront⟩ := hread _ _ _ ha
  refine ⟨front, middle, a, rfl, hfront, fun rest => ?_⟩
  obtain ⟨a', middle', ha', hb⟩ := bind_eq_ok.1 (h rest)
  rw [List.append_assoc, hfront] at ha'
  cases ha'
  exact hb

theorem Takes.of_pure {a b : α} (h : Takes (pure a) bytes b) : bytes = [] ∧ a = b := by
  cases h.alone
  exact ⟨rfl, rfl⟩

theorem Takes.of_returns {f : α → β} (hread : Local read)
    (h : Takes (read >>= fun x => pure (f x)) bytes b) : ∃ a, Takes read bytes a ∧ f a = b := by
  obtain ⟨front, more, a, rfl, ha, hb⟩ := h.parts hread
  obtain ⟨rfl, rfl⟩ := hb.of_pure
  rw [List.append_nil]
  exact ⟨a, ha, rfl⟩

/-- A local reader uses bytes up exactly when it takes them. -/
theorem Local.all_eq_ok (hread : Local read) : Reader.all read bytes = .ok a ↔ Takes read bytes a := by
  refine ⟨fun h => ?_, Takes.all⟩
  unfold Reader.all at h
  split at h
  · rename_i value hvalue
    cases h
    obtain ⟨front, rfl, hfront⟩ := hread _ _ _ hvalue
    rwa [List.append_nil]
  · cases h
  · cases h

theorem Takes.unique {a' : α} (h : Takes read bytes a) (h' : Takes read bytes a') : a = a' :=
  (Prod.mk.inj (Except.ok.inj (h.alone.symm.trans h'.alone))).1

/-- Bytes that are taken do not go on to longer ones that are taken. -/
theorem Takes.eq_nil {a' : α} (h : Takes read bytes a) (hmore : Takes read (bytes ++ more) a') :
    more = [] :=
  (Prod.mk.inj (Except.ok.inj ((h more).symm.trans hmore.alone))).2

end

/-! ## Numbers -/

theorem local_readByte : Local readByte := by
  intro bytes b rest h
  cases bytes with
  | nil => cases h
  | cons first others =>
    cases h
    exact ⟨[b], rfl, fun rest => rfl⟩

theorem Takes.of_byte {bytes : Bytes} {b : UInt8} (h : Takes readByte bytes b) : bytes = [b] := by
  have hb := h.alone
  cases bytes with
  | nil => cases hb
  | cons first others =>
    cases hb
    rfl

theorem Takes.of_fixed {width n : Nat} {bytes : Bytes} (h : Takes (readFixed width) bytes n) :
    bytes.length = width ∧ ofLittleEndian bytes = n := by
  have hn := h.alone
  unfold readFixed at hn
  split at hn
  · cases hn
  · rename_i hlen
    obtain ⟨hvalue, hdrop⟩ := Prod.mk.inj (Except.ok.inj hn)
    have hle : bytes.length ≤ width := List.drop_eq_nil_iff.1 hdrop
    rw [List.take_of_length_le hle] at hvalue
    exact ⟨by omega, hvalue⟩

theorem local_readFixed (width : Nat) : Local (readFixed width) := by
  intro bytes n rest h
  unfold readFixed at h
  split at h
  · cases h
  · rename_i hlen
    cases h
    have htake : (bytes.take width).length = width := by
      rw [List.length_take]
      omega
    refine ⟨bytes.take width, (List.take_append_drop width bytes).symm, fun rest => ?_⟩
    have hfits : ¬ (bytes.take width ++ rest).length < width := by
      rw [List.length_append]
      omega
    rw [readFixed, if_neg hfits, List.take_left' htake, List.drop_left' htake]

/-- A number is read by its first byte. -/
theorem readNat_eq : readNat = readByte >>= fun b =>
    if b ≤ 250 then pure b.toNat
    else if b = 251 then readFixed 2
    else if b = 252 then readFixed 4
    else if b = 253 then readFixed 8
    else if b = 254 then fail .numberTooWide
    else fail .reservedByte := by
  funext bytes
  cases bytes with
  | nil => rfl
  | cons b rest =>
    change readNat (b :: rest) = (if _ then _ else _ : Reader Nat) rest
    simp only [readNat]
    repeat' split
    all_goals rfl

theorem local_readNat : Local readNat := by
  rw [readNat_eq]
  refine local_readByte.bind fun b => ?_
  repeat' split
  · exact local_pure _
  · exact local_readFixed 2
  · exact local_readFixed 4
  · exact local_readFixed 8
  · exact local_fail _
  · exact local_fail _

theorem ofLittleEndian_lt (bytes : Bytes) : ofLittleEndian bytes < Nat.pow 256 bytes.length := by
  induction bytes with
  | nil => exact Nat.one_pos
  | cons b rest ih =>
    have hb := b.toNat_lt
    have hpow : Nat.pow 256 (b :: rest).length = Nat.pow 256 rest.length * 256 := rfl
    rw [hpow, ofLittleEndian]
    omega

theorem length_writeNat (n : Nat) : (writeNat n).length =
    if n ≤ 250 then 1 else if n < UInt16.size then 3 else if n < UInt32.size then 5 else 9 := by
  unfold writeNat
  repeat' split
  all_goals simp

/-- Of the forms of a number the one that is written is the shortest. -/
theorem Takes.writeNat_length_le {bytes : Bytes} {n : Nat} (h : Takes readNat bytes n) :
    (writeNat n).length ≤ bytes.length := by
  rw [readNat_eq] at h
  obtain ⟨front, more, b, rfl, hfront, hn⟩ := h.parts local_readByte
  obtain rfl := hfront.of_byte
  have hwidth (width : Nat) (hw : Takes (readFixed width) more n) :
      more.length = width ∧ n < Nat.pow 256 width := by
    obtain ⟨rfl, rfl⟩ := hw.of_fixed
    exact ⟨rfl, ofLittleEndian_lt more⟩
  rw [List.length_append, List.length_singleton, length_writeNat]
  split at hn
  · rename_i hb
    obtain ⟨-, rfl⟩ := hn.of_pure
    rw [if_pos (by simpa [UInt8.le_iff_toNat_le] using hb)]
    omega
  · repeat' split at hn
    · obtain ⟨hmore, hlt⟩ := hwidth 2 hn
      rw [if_pos (show n < UInt16.size from hlt)]
      split <;> omega
    · obtain ⟨hmore, hlt⟩ := hwidth 4 hn
      rw [if_pos (show n < UInt32.size from hlt)]
      repeat' split
      all_goals omega
    · obtain ⟨hmore, -⟩ := hwidth 8 hn
      repeat' split
      all_goals omega
    · cases hn.alone
    · cases hn.alone

theorem local_readU32 : Local readU32 := by
  refine local_readNat.bind fun n => ?_
  split
  · exact local_pure _
  · exact local_fail _

theorem local_readKind (count : Nat) : Local (readKind count) := by
  refine local_readU32.bind fun index => ?_
  split
  · exact local_pure _
  · exact local_fail _

theorem local_readInt : Local readInt :=
  local_readNat.returns

theorem local_readDouble : Local readDouble :=
  (local_readFixed 8).returns

theorem local_readBool : Local readBool := by
  refine local_readByte.bind fun b => ?_
  repeat' split
  · exact local_pure _
  · exact local_pure _
  · exact local_fail _

/-! ## Text -/

theorem Takes.of_textOf {length : Nat} {bytes : Bytes} {s : String}
    (h : Takes (readTextOf length) bytes s) : bytes = Text.bytesOfText s ∧ bytes.length = length := by
  have hs := h.alone
  unfold readTextOf at hs
  split at hs
  · cases hs
  · rename_i hlen
    split at hs
    · rename_i text htext
      obtain ⟨rfl, hdrop⟩ := Prod.mk.inj (Except.ok.inj hs)
      have hle : bytes.length ≤ length := List.drop_eq_nil_iff.1 hdrop
      rw [List.take_of_length_le hle] at htext
      exact ⟨(Text.bytesOfText_of_textOfBytes? htext).symm, by omega⟩
    · cases hs

theorem local_readTextOf (length : Nat) : Local (readTextOf length) := by
  intro bytes s rest h
  unfold readTextOf at h
  split at h
  · cases h
  · rename_i hlen
    split at h
    · rename_i text htext
      cases h
      have htake : (bytes.take length).length = length := by
        rw [List.length_take]
        omega
      have htakes := takes_textOf s
      rw [Text.bytesOfText_of_textOfBytes? htext, htake] at htakes
      exact ⟨bytes.take length, (List.take_append_drop length bytes).symm, htakes⟩
    · cases h

theorem local_readText : Local readText :=
  local_readNat.bind local_readTextOf

theorem Takes.writeText_length_le {bytes : Bytes} {s : String} (h : Takes readText bytes s) :
    (writeText s).length ≤ bytes.length := by
  obtain ⟨front, more, length, rfl, hfront, hs⟩ := h.parts local_readNat
  obtain ⟨rfl, rfl⟩ := hs.of_textOf
  simp only [writeText, List.length_append]
  have hlength := hfront.writeNat_length_le
  omega

/-! ## Lists -/

section
variable {α : Type} {read : Reader α} {bytes : Bytes} {items : List α} {count : Nat}

theorem local_readItems (hread : Local read) (count : Nat) : Local (readItems read count) := by
  induction count with
  | zero => exact local_pure []
  | succ count ih => exact hread.bind fun _ => ih.returns

theorem local_readList (hread : Local read) : Local (readList read) :=
  local_readNat.bind (local_readItems hread)

theorem Takes.of_items_succ (hread : Local read) (h : Takes (readItems read (count + 1)) bytes items) :
    ∃ piece more a rest, bytes = piece ++ more ∧ items = a :: rest ∧ Takes read piece a ∧
      Takes (readItems read count) more rest := by
  obtain ⟨piece, more, a, rfl, ha, hmore⟩ := Takes.parts hread h
  obtain ⟨rest, hrest, rfl⟩ := hmore.of_returns (local_readItems hread count)
  exact ⟨piece, more, a, rest, rfl, rfl, ha, hrest⟩

theorem Takes.length_items (hread : Local read) (h : Takes (readItems read count) bytes items) :
    items.length = count := by
  induction count generalizing bytes items with
  | zero =>
    obtain ⟨-, rfl⟩ := Takes.of_pure h
    rfl
  | succ count ih =>
    obtain ⟨-, more, a, rest, -, rfl, -, hrest⟩ := h.of_items_succ hread
    rw [List.length_cons, ih hrest]

/-- A list is taken as the number of its items and then the items. -/
theorem Takes.of_list (hread : Local read) (h : Takes (readList read) bytes items) :
    ∃ front more, bytes = front ++ more ∧ Takes readNat front items.length ∧
      Takes (readItems read items.length) more items := by
  obtain ⟨front, more, count, rfl, hfront, hitems⟩ := Takes.parts local_readNat h
  obtain rfl := hitems.length_items hread
  exact ⟨front, more, rfl, hfront, hitems⟩

/-- Every item is taken from a piece of the bytes. -/
theorem Takes.exists_piece (hread : Local read) (h : Takes (readItems read count) bytes items) {a : α}
    (ha : a ∈ items) : ∃ piece, piece.length ≤ bytes.length ∧ Takes read piece a := by
  induction count generalizing bytes items with
  | zero =>
    obtain ⟨-, rfl⟩ := Takes.of_pure h
    cases ha
  | succ count ih =>
    obtain ⟨piece, more, b, rest, rfl, rfl, hb, hrest⟩ := h.of_items_succ hread
    rcases List.mem_cons.1 ha with rfl | ha
    · exact ⟨piece, by simp, hb⟩
    · obtain ⟨piece', hle, hpiece⟩ := ih hrest ha
      refine ⟨piece', ?_, hpiece⟩
      rw [List.length_append]
      omega

/-- Items do not measure more than the bytes that they are read from, if each one of them does not. -/
theorem Takes.sum_le (hread : Local read) (measure : α → Nat)
    (h : ∀ piece a, Takes read piece a → measure a ≤ piece.length)
    (hitems : Takes (readItems read count) bytes items) : (items.map measure).sum ≤ bytes.length := by
  induction count generalizing bytes items with
  | zero =>
    obtain ⟨-, rfl⟩ := Takes.of_pure hitems
    exact Nat.zero_le _
  | succ count ih =>
    obtain ⟨piece, more, a, rest, rfl, rfl, ha, hrest⟩ := hitems.of_items_succ hread
    have hpiece := h piece a ha
    have hmore := ih hrest
    rw [List.map_cons, List.sum_cons, List.length_append]
    omega

/-- Items are not written with more bytes than they are read from, if each one of them is not. -/
theorem Takes.flatMap_length_le (hread : Local read) {write : α → Bytes}
    (hwrite : ∀ {piece a}, Takes read piece a → (write a).length ≤ piece.length)
    (h : Takes (readItems read count) bytes items) :
    (items.flatMap write).length ≤ bytes.length := by
  rw [List.length_flatMap]
  exact h.sum_le hread _ fun _ _ => hwrite

theorem Takes.writeList_length_le (hread : Local read) {write : α → Bytes}
    (hwrite : ∀ {piece a}, Takes read piece a → (write a).length ≤ piece.length)
    (h : Takes (readList read) bytes items) : (writeList write items).length ≤ bytes.length := by
  obtain ⟨front, more, rfl, hcount, hitems⟩ := h.of_list hread
  have hfront := hcount.writeNat_length_le
  have hmore := hitems.flatMap_length_le hread hwrite
  rw [writeList, List.length_append, List.length_append]
  omega

/-- Items are read alike by readers that take each of them alike. -/
theorem Takes.items_imp (hread : Local read) {read' : Reader α}
    (himp : ∀ piece a, piece.length ≤ bytes.length → Takes read piece a → Takes read' piece a)
    (h : Takes (readItems read count) bytes items) : Takes (readItems read' count) bytes items := by
  induction count generalizing bytes items with
  | zero => exact h
  | succ count ih =>
    obtain ⟨piece, more, a, rest, rfl, rfl, ha, hrest⟩ := h.of_items_succ hread
    rw [List.length_append] at himp
    have hmore : Takes (readItems read' count) more rest :=
      ih (fun piece' a' hle => himp piece' a' (by omega)) hrest
    exact (himp piece a (by omega) ha).bind hmore.returns

end

/-! ## Files -/

/-- No bytes that are accepted as a file begin others that are, whatever the files are read for. -/
def PrefixFree {ι ε α : Type} (accept : ι → Bytes → Except ε α) : Prop :=
  ∀ i bytes a, accept i bytes = .ok a → ∀ j more, more ≠ [] →
    (∃ e, accept j (bytes ++ more) = .error e) ∧
      ∀ front, front ++ more = bytes → ∃ e, accept j front = .error e

theorem prefixFree {ι ε α : Type} {accept : ι → Bytes → Except ε α}
    (h : ∀ i j bytes more a b, accept i bytes = .ok a → accept j (bytes ++ more) = .ok b → more = []) :
    PrefixFree accept := by
  intro i bytes a ha j more hmore
  constructor
  · cases hj : accept j (bytes ++ more) with
    | error e => exact ⟨e, rfl⟩
    | ok b => exact absurd (h i j bytes more a b ha hj) hmore
  · rintro front rfl
    cases hj : accept j front with
    | error e => exact ⟨e, rfl⟩
    | ok b => exact absurd (h j i front more b a hj ha) hmore

end SymbolAtlas.Binary
