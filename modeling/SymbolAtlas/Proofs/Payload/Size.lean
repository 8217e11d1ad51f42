import SymbolAtlas.Proofs.Payload.Local

/-!
# The size of what is read

All that a payload holds takes bytes: whatever is in it takes one at least, and an array takes two
before its first item. So nothing that is read is larger than the bytes it is read from, whatever
lengths stand in these.

* `Payload.size`: how much a payload holds;
* `Payload.size_le`, `Payload.nesting_le`: it is no more than the payload has bytes, and arrays in it
  nest half as deep at most.
-/

namespace SymbolAtlas

open Binary

namespace Constant

variable {Owner : Type}

mutual

/-- How many constants there are in a constant: itself, and the items of arrays at every depth. -/
def size : Constant Owner → Nat
  | .array items => 1 + sizes items
  | _ => 1

def sizes : List (Constant Owner) → Nat
  | [] => 0
  | c :: rest => c.size + sizes rest

end

mutual

/-- How deep arrays nest in a constant. -/
def nesting : Constant Owner → Nat
  | .array items => 1 + nestings items
  | _ => 0

def nestings : List (Constant Owner) → Nat
  | [] => 0
  | c :: rest => max c.nesting (nestings rest)

end

theorem sizes_eq_sum (items : List (Constant Owner)) : sizes items = (items.map size).sum := by
  induction items with
  | nil => rfl
  | cons c rest ih => rw [sizes, ih, List.map_cons, List.sum_cons]

theorem nestings_le {items : List (Constant Owner)} {n : Nat} (h : ∀ c ∈ items, c.nesting ≤ n) :
    nestings items ≤ n := by
  induction items with
  | nil => exact Nat.zero_le n
  | cons c rest ih =>
    obtain ⟨hc, hrest⟩ := List.forall_mem_cons.1 h
    exact Nat.max_le.2 ⟨hc, ih hrest⟩

end Constant

/-- How much there is in a use of an annotation: itself, its arguments and their constants. -/
def AnnotationRecord.size (a : AnnotationRecord) : Nat :=
  1 + (a.arguments.map fun argument => 1 + argument.2.size).sum

/-- How much there is in a class: itself, its supertypes and what is in its annotations. -/
def ClassRecord.size (c : ClassRecord) : Nat :=
  1 + c.supertypes.length + (c.annotations.map AnnotationRecord.size).sum

namespace Payload

/-- How much a payload holds: what is in its classes, its functions and its properties. -/
def size (p : Payload) : Nat :=
  (p.classes.map ClassRecord.size).sum + p.functions.length + p.properties.length

/-- The constants that stand as arguments in a payload. -/
def constants (p : Payload) : List (Constant String) :=
  p.classes.flatMap fun c => c.annotations.flatMap fun a => a.arguments.map (·.2)

variable {bytes : Bytes}

/-! ## Text and lists -/

theorem length_pos_of_takes_text {s : String} (h : Takes readText bytes s) : 0 < bytes.length :=
  Nat.lt_of_lt_of_le (writeText_length_pos s) h.writeText_length_le

section
variable {α : Type} {read : Reader α} {items : List α}

/-- A list takes a byte before its items. -/
theorem sum_lt_of_takes_list (hread : Local read) (measure : α → Nat)
    (h : ∀ piece a, Takes read piece a → measure a ≤ piece.length)
    (hitems : Takes (readList read) bytes items) : (items.map measure).sum < bytes.length := by
  obtain ⟨front, more, rfl, hcount, hitems⟩ := hitems.of_list hread
  have hfront := Nat.lt_of_lt_of_le (writeNat_length_pos items.length) hcount.writeNat_length_le
  have hmore := hitems.sum_le hread measure h
  rw [List.length_append]
  omega

theorem exists_piece_of_takes_list (hread : Local read) (h : Takes (readList read) bytes items) {a : α}
    (ha : a ∈ items) : ∃ piece, piece.length < bytes.length ∧ Takes read piece a := by
  obtain ⟨front, more, rfl, hcount, hitems⟩ := h.of_list hread
  have hfront := Nat.lt_of_lt_of_le (writeNat_length_pos items.length) hcount.writeNat_length_le
  obtain ⟨piece, hle, hpiece⟩ := hitems.exists_piece hread ha
  refine ⟨piece, ?_, hpiece⟩
  rw [List.length_append]
  omega

end

theorem length_lt_of_takes_texts {texts : List String} (h : Takes (readList readText) bytes texts) :
    texts.length < bytes.length := by
  have hsum := sum_lt_of_takes_list local_readText (fun _ => 1) (fun _ _ => length_pos_of_takes_text) h
  rwa [List.map_const', List.sum_replicate_nat, Nat.mul_one] at hsum

/-! ## Constants -/

/-- By induction on the depth the reader allows: the items of an array are taken from two bytes less
than the array. -/
theorem size_le_of_takes_constantTo {depth : Nat} {c : Constant String}
    (h : Takes (readConstantTo depth) bytes c) :
    c.size ≤ bytes.length ∧ 2 * c.nesting ≤ bytes.length := by
  induction depth generalizing bytes c with
  | zero => cases h.alone
  | succ depth ih =>
    obtain ⟨kind, more, index, rfl, hkind, hc⟩ := Takes.parts (local_readKind 6) h
    have hpos := length_pos_of_takes_kind hkind
    rw [List.length_append]
    have hflat (hsize : c.size = 1) (hnesting : c.nesting = 0) :
        c.size ≤ kind.length + more.length ∧ 2 * c.nesting ≤ kind.length + more.length := by omega
    split at hc
    · obtain ⟨value, -, rfl⟩ := hc.of_returns local_readBool
      exact hflat rfl rfl
    · obtain ⟨value, -, rfl⟩ := hc.of_returns local_readInt
      exact hflat rfl rfl
    · obtain ⟨bits, -, rfl⟩ := hc.of_returns local_readDouble
      exact hflat rfl rfl
    · obtain ⟨value, -, rfl⟩ := hc.of_returns local_readText
      exact hflat rfl rfl
    · obtain ⟨_, _, owner, rfl, -, hname⟩ := hc.parts local_readText
      obtain ⟨name, -, rfl⟩ := hname.of_returns local_readText
      exact hflat rfl rfl
    · have hlocal := local_readConstantTo depth
      obtain ⟨items, hitems, rfl⟩ := hc.of_returns (local_readList hlocal)
      have hsum := sum_lt_of_takes_list hlocal Constant.size (fun _ _ hpiece => (ih hpiece).1) hitems
      have hnestings : Constant.nestings items ≤ (more.length - 1) / 2 := by
        refine Constant.nestings_le fun c hmem => ?_
        obtain ⟨piece, hlt, hpiece⟩ := exists_piece_of_takes_list hlocal hitems hmem
        have := (ih hpiece).2
        omega
      rw [Constant.size, Constant.sizes_eq_sum, Constant.nesting]
      omega

theorem size_le_of_takes_constant {c : Constant String} (h : Takes readConstant bytes c) :
    c.size ≤ bytes.length ∧ 2 * c.nesting ≤ bytes.length := by
  -- With nothing behind the constant the depth that is allowed is that of its own bytes.
  have hto : readConstantTo (bytes.length + 1) bytes = .ok (c, []) := h.alone
  exact size_le_of_takes_constantTo ((local_readConstantTo _).all_eq_ok.1 (by rw [Reader.all, hto]))

/-! ## Classes -/

theorem size_le_of_takes_argument {argument : String × Constant String}
    (h : Takes readArgument bytes argument) :
    1 + argument.2.size ≤ bytes.length ∧ 2 * argument.2.nesting ≤ bytes.length := by
  obtain ⟨front, more, name, rfl, hname, hrest⟩ := Takes.parts local_readText h
  obtain ⟨value, hvalue, rfl⟩ := hrest.of_returns local_readConstant
  have hpos := length_pos_of_takes_text hname
  obtain ⟨hsize, hnesting⟩ := size_le_of_takes_constant hvalue
  rw [List.length_append]
  dsimp only
  omega

theorem size_le_of_takes_annotationRecord {a : AnnotationRecord} (h : Takes readAnnotationRecord bytes a) :
    a.size ≤ bytes.length ∧
      ∀ argument ∈ a.arguments, 2 * argument.2.nesting ≤ bytes.length := by
  obtain ⟨front, more, className, rfl, hname, hrest⟩ := Takes.parts local_readText h
  obtain ⟨arguments, harguments, rfl⟩ := hrest.of_returns (local_readList local_readArgument)
  have hpos := length_pos_of_takes_text hname
  rw [List.length_append]
  constructor
  · have hsum := sum_lt_of_takes_list local_readArgument (fun argument => 1 + argument.2.size)
      (fun _ _ hpiece => (size_le_of_takes_argument hpiece).1) harguments
    dsimp only [AnnotationRecord.size]
    omega
  · intro argument hmem
    obtain ⟨piece, hlt, hpiece⟩ := exists_piece_of_takes_list local_readArgument harguments hmem
    have := (size_le_of_takes_argument hpiece).2
    omega

theorem size_le_of_takes_class {c : ClassRecord} (h : Takes readClass bytes c) :
    c.size ≤ bytes.length ∧
      ∀ a ∈ c.annotations, ∀ argument ∈ a.arguments, 2 * argument.2.nesting ≤ bytes.length := by
  obtain ⟨name, afterName, _, rfl, hname, h⟩ := Takes.parts local_readText h
  obtain ⟨kind, afterKind, _, rfl, -, h⟩ := h.parts local_readClassKind
  obtain ⟨parameters, afterParameters, _, rfl, -, h⟩ := h.parts local_readU32
  obtain ⟨front, more, supertypes, rfl, hsupertypes, h⟩ := h.parts (local_readList local_readText)
  obtain ⟨annotations, hannotations, rfl⟩ := h.of_returns (local_readList local_readAnnotationRecord)
  have hpos := length_pos_of_takes_text hname
  have hlength := length_lt_of_takes_texts hsupertypes
  simp only [List.length_append]
  constructor
  · have hsum := sum_lt_of_takes_list local_readAnnotationRecord AnnotationRecord.size
      (fun _ _ hpiece => (size_le_of_takes_annotationRecord hpiece).1) hannotations
    dsimp only [ClassRecord.size]
    omega
  · intro a ha argument hargument
    obtain ⟨piece, hlt, hpiece⟩ := exists_piece_of_takes_list local_readAnnotationRecord hannotations ha
    have := (size_le_of_takes_annotationRecord hpiece).2 argument hargument
    omega

/-! ## Payloads -/

theorem size_le_of_takes {p : Payload} (h : Takes read bytes p) :
    p.size ≤ bytes.length ∧ ∀ c ∈ p.constants, 2 * c.nesting ≤ bytes.length := by
  obtain ⟨package, afterPackage, _, rfl, -, h⟩ := Takes.parts local_readText h
  obtain ⟨version, afterVersion, _, rfl, -, h⟩ := h.parts local_readVersion
  obtain ⟨front, afterClasses, classes, rfl, hclasses, h⟩ := h.parts (local_readList local_readClass)
  obtain ⟨middle, more, functions, rfl, hfunctions, h⟩ := h.parts (local_readList local_readText)
  obtain ⟨properties, hproperties, rfl⟩ := h.of_returns (local_readList local_readText)
  simp only [List.length_append]
  constructor
  · have hsum := sum_lt_of_takes_list local_readClass ClassRecord.size
      (fun _ _ hpiece => (size_le_of_takes_class hpiece).1) hclasses
    have hfunctions := length_lt_of_takes_texts hfunctions
    have hproperties := length_lt_of_takes_texts hproperties
    dsimp only [size]
    omega
  · intro c hmem
    obtain ⟨record, hrecord, hmem⟩ := List.mem_flatMap.1 hmem
    obtain ⟨a, ha, hmem⟩ := List.mem_flatMap.1 hmem
    obtain ⟨argument, hargument, rfl⟩ := List.mem_map.1 hmem
    obtain ⟨piece, hlt, hpiece⟩ := exists_piece_of_takes_list local_readClass hclasses hrecord
    have := (size_le_of_takes_class hpiece).2 a ha argument hargument
    omega

end Payload

end SymbolAtlas
