import SymbolAtlas.Proofs.Binary
import SymbolAtlas.Symbols.Store

namespace SymbolAtlas.Payload

open Binary

theorem writeConstants_eq_flatMap (items : List (Constant String)) :
    writeConstants items = items.flatMap writeConstant := by
  induction items with
  | nil => rfl
  | cons c rest ih => rw [writeConstants, ih, List.flatMap_cons]

theorem writeConstant_array (items : List (Constant String)) :
    writeConstant (.array items) = writeNat 5 ++ writeList writeConstant items := by
  rw [writeConstant, writeConstants_eq_flatMap, List.append_assoc, writeList]

theorem writeConstant_length_pos (c : Constant String) : 0 < (writeConstant c).length := by
  have hkind (index : Nat) (rest : Bytes) : 0 < (writeNat index ++ rest).length := by
    have := writeNat_length_pos index
    rw [List.length_append]
    omega
  cases c with
  | bool | int | double | text => exact hkind _ _
  | entry | array => simp only [writeConstant, List.append_assoc]; exact hkind _ _

/-- An array is two bytes longer than what it holds, so the depth that the length of a constant
allows is enough for its items. -/
theorem takes_constantTo {depth : Nat} {c : Constant String}
    (hd : (writeConstant c).length ≤ depth) (hs : (writeConstant c).length < UInt64.size) :
    Takes (readConstantTo depth) (writeConstant c) c := by
  induction depth generalizing c with
  | zero => exact absurd hd (Nat.not_le_of_lt (writeConstant_length_pos c))
  | succ depth ih =>
    have hkind {index : Nat} (hi : index < 6) := takes_kind hi (by decide)
    cases c with
    | bool value => exact (hkind (by decide)).bind (takes_writeBool value).returns
    | int value => exact (hkind (by decide)).bind (takes_writeInt value).returns
    | double bits => exact (hkind (by decide)).bind (takes_writeDouble bits).returns
    | text value =>
      rw [writeConstant, List.length_append] at hs
      exact (hkind (by decide)).bind (takes_writeText (by omega)).returns
    | entry owner name =>
      rw [writeConstant, List.append_assoc] at hs ⊢
      simp only [List.length_append] at hs
      exact (hkind (by decide)).bind
        ((takes_writeText (by omega)).bind (takes_writeText (by omega)).returns)
    | array items =>
      rw [writeConstant_array] at hd hs ⊢
      rw [List.length_append] at hd hs
      have htag := writeNat_length_pos 5
      refine (hkind (by decide)).bind (Takes.returns ?_)
      apply takes_writeList (fun c _ => writeConstant_length_pos c) (by omega)
      intro c hc hlen
      refine ih ?_ hlen
      have hitem := item_length_le writeConstant hc
      rw [writeList, List.length_append] at hd
      omega

theorem takes_writeConstant {c : Constant String} (hs : (writeConstant c).length < UInt64.size) :
    Takes readConstant (writeConstant c) c := by
  intro rest
  refine takes_constantTo ?_ hs rest
  rw [List.length_append]
  omega

theorem takes_writeArgument {a : String × Constant String}
    (hs : (writeArgument a).length < UInt64.size) : Takes readArgument (writeArgument a) a := by
  rw [writeArgument, List.length_append] at hs
  exact (takes_writeText (by omega)).bind (takes_writeConstant (by omega)).returns

theorem writeArgument_length_pos (a : String × Constant String) : 0 < (writeArgument a).length := by
  have := writeText_length_pos a.1
  rw [writeArgument, List.length_append]
  omega

theorem takes_writeAnnotationRecord {a : AnnotationRecord}
    (hs : (writeAnnotationRecord a).length < UInt64.size) :
    Takes readAnnotationRecord (writeAnnotationRecord a) a := by
  rw [writeAnnotationRecord, List.length_append] at hs
  refine (takes_writeText (by omega)).bind (Takes.returns ?_)
  exact takes_writeList (fun a _ => writeArgument_length_pos a) (by omega)
    fun _ _ => takes_writeArgument

theorem writeAnnotationRecord_length_pos (a : AnnotationRecord) :
    0 < (writeAnnotationRecord a).length := by
  have := writeText_length_pos a.className
  rw [writeAnnotationRecord, List.length_append]
  omega

theorem takes_kindIndex (k : ClassKind) : Takes readClassKind (writeNat (kindIndex k)) k := by
  intro rest
  cases k <;> rfl

theorem takes_writeClass {c : ClassRecord} (hs : (writeClass c).length < UInt64.size) :
    Takes readClass (writeClass c) c := by
  simp only [writeClass, List.append_assoc] at hs ⊢
  simp only [List.length_append] at hs
  have hsupertypes := takes_writeTexts c.supertypes (by omega)
  have hannotations : Takes (readList readAnnotationRecord) (writeList writeAnnotationRecord c.annotations)
      c.annotations :=
    takes_writeList (fun a _ => writeAnnotationRecord_length_pos a) (by omega)
      fun _ _ => takes_writeAnnotationRecord
  exact (takes_writeText (by omega)).bind <| (takes_kindIndex c.kind).bind <|
    (takes_writeU32 c.typeParameters).bind <| hsupertypes.bind hannotations.returns

theorem writeClass_length_pos (c : ClassRecord) : 0 < (writeClass c).length := by
  have := writeText_length_pos c.name
  simp only [writeClass, List.length_append]
  omega

theorem takes_writeVersion (v : MetadataVersion) : Takes readVersion (writeVersion v) v := by
  rw [writeVersion, List.append_assoc]
  exact (takes_writeU32 v.major).bind ((takes_writeU32 v.minor).bind (takes_writeU32 v.patch).returns)

theorem takes_write {p : Payload} (hs : p.write.length < UInt64.size) : Takes read p.write p := by
  simp only [write, List.append_assoc] at hs ⊢
  simp only [List.length_append] at hs
  have hclasses : Takes (readList readClass) (writeList writeClass p.classes) p.classes :=
    takes_writeList (fun c _ => writeClass_length_pos c) (by omega) fun _ _ => takes_writeClass
  have hfunctions := takes_writeTexts p.functions (by omega)
  have hproperties := takes_writeTexts p.properties (by omega)
  exact (takes_writeText (by omega)).bind <| (takes_writeVersion p.version).bind <|
    hclasses.bind <| hfunctions.bind hproperties.returns

theorem takes_encode {p : Payload} {bytes : Bytes} (h : p.encode? = some bytes) :
    Takes read bytes p := by
  unfold encode? at h
  split at h
  · rename_i hlimit
    obtain rfl := Option.some.inj h
    exact takes_write (Nat.lt_of_le_of_lt hlimit (by decide))
  · cases h

/-- **Payloads read back.** The file of a payload, read by the binary decoder as the file of the
payload's package, gives exactly the payload. The name of the package must not have white space at
its ends, for the name that is asked for has none. -/
theorem decode_encode {p : Payload} {bytes : Bytes} (h : p.encode? = some bytes)
    (ht : Text.trim p.package.toList = p.package.toList) :
    Decoder.binary (QualName.ofText p.package) bytes = .ok p := by
  have hname : (QualName.ofText p.package).text = p.package := by
    rw [QualName.ofText, QualName.text_ofChars, ht, String.ofList_toList]
  have hdecode : decode (QualName.ofText p.package) bytes = .ok p := by
    simp only [decode, (takes_encode h).all, hname, if_true]
  rw [Decoder.binary, hdecode]
  rfl

/-- A class with an annotation at the limits of the format: numbers of every width, text that is not
ASCII, and an array in an array. -/
def limits : Payload where
  package := "été.graph"
  version := ⟨1, 4, 65536⟩
  classes := [⟨"Outer.Inner", .annotationType, 4294967295, ["a/B", ""], [⟨"a/C",
    [("least", .array [.int (-9223372036854775808), .array [.double 0x7FF8000000000001, .bool true]]),
      ("kind", .entry "a/K" "ONE"), ("label", .text "≤")]⟩]⟩]
  functions := ["f"]
  properties := []

theorem decode_encode_limits :
    limits.encode? = some limits.write ∧
      Text.trim limits.package.toList = limits.package.toList ∧
      Decoder.binary (QualName.ofText limits.package) limits.write = .ok limits := by
  have hfits : limits.encode? = some limits.write := if_pos (by decide +kernel)
  have htrim : Text.trim limits.package.toList = limits.package.toList := by decide
  exact ⟨hfits, htrim, decode_encode hfits htrim⟩

end SymbolAtlas.Payload
