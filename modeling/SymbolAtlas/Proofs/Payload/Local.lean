import SymbolAtlas.Proofs.Binary.Local
import SymbolAtlas.Proofs.Payload

/-!
# Payloads are read from front to back

The reader of payloads is local. The one part that looks further is the reader of constants: it lets
arrays nest as deep as all of the bytes to come allow. More depth than a constant has bytes makes no
difference to it.

* `takes_constantTo_of_length_le`: constants are taken at every depth that their own bytes allow;
* `decode_eq_ok`: which bytes are a payload.
-/

namespace SymbolAtlas

open Binary

namespace Payload

theorem local_readConstantTo (depth : Nat) : Local (readConstantTo depth) := by
  induction depth with
  | zero => exact local_fail _
  | succ depth ih =>
    refine (local_readKind 6).bind fun index => ?_
    split
    · exact local_readBool.returns
    · exact local_readInt.returns
    · exact local_readDouble.returns
    · exact local_readText.returns
    · exact local_readText.bind fun _ => local_readText.returns
    · exact (local_readList ih).returns

theorem length_pos_of_takes_kind {count index : Nat} {bytes : Bytes}
    (h : Takes (readKind count) bytes index) : 0 < bytes.length := by
  apply List.length_pos_iff.2
  rintro rfl
  cases h.alone

/-- The items of an array have fewer bytes than the array, so the depth that is left after the kind
of the array is enough for them. -/
theorem takes_constantTo_of_length_le {depth : Nat} {bytes : Bytes} {c : Constant String}
    (h : Takes (readConstantTo depth) bytes c) {depth' : Nat} (hd : bytes.length ≤ depth') :
    Takes (readConstantTo depth') bytes c := by
  induction depth generalizing bytes c depth' with
  | zero => cases h.alone
  | succ depth ih =>
    obtain ⟨kind, more, index, rfl, hkind, hc⟩ := Takes.parts (local_readKind 6) h
    have hpos := length_pos_of_takes_kind hkind
    rw [List.length_append] at hd
    cases depth' with
    | zero => omega
    | succ depth' =>
      refine hkind.bind ?_
      split at hc
      · exact hc
      · exact hc
      · exact hc
      · exact hc
      · exact hc
      · obtain ⟨items, hitems, rfl⟩ := hc.of_returns (local_readList (local_readConstantTo depth))
        obtain ⟨front, rest, rfl, hcount, hitems⟩ := hitems.of_list (local_readConstantTo depth)
        rw [List.length_append] at hd
        have hrest : Takes (readItems (readConstantTo depth') items.length) rest items :=
          hitems.items_imp (local_readConstantTo depth) fun piece c hle hpiece =>
            ih hpiece (by omega)
        exact (hcount.bind hrest).returns

theorem local_readConstant : Local readConstant := by
  intro bytes c rest h
  obtain ⟨front, rfl, hfront⟩ := local_readConstantTo _ _ _ _ h
  refine ⟨front, rfl, fun more => ?_⟩
  refine takes_constantTo_of_length_le hfront ?_ more
  rw [List.length_append]
  omega

theorem local_readArgument : Local readArgument :=
  local_readText.bind fun _ => local_readConstant.returns

theorem local_readAnnotationRecord : Local readAnnotationRecord :=
  local_readText.bind fun _ => (local_readList local_readArgument).returns

theorem local_readClassKind : Local readClassKind := by
  refine (local_readKind 5).bind fun index => ?_
  split <;> exact local_pure _

theorem local_readClass : Local readClass :=
  local_readText.bind fun _ => local_readClassKind.bind fun _ => local_readU32.bind fun _ =>
    (local_readList local_readText).bind fun _ => (local_readList local_readAnnotationRecord).returns

theorem local_readVersion : Local readVersion :=
  local_readU32.bind fun _ => local_readU32.bind fun _ => local_readU32.returns

theorem local_read : Local read :=
  local_readText.bind fun _ => local_readVersion.bind fun _ =>
    (local_readList local_readClass).bind fun _ => (local_readList local_readText).bind fun _ =>
      (local_readList local_readText).returns

/-- The payloads of a package are those that are taken from all the bytes and name the package. -/
theorem decode_eq_ok {package : QualName} {bytes : Bytes} {p : Payload} :
    decode package bytes = .ok p ↔ Takes read bytes p ∧ p.package = package.text := by
  rw [← local_read.all_eq_ok]
  unfold decode
  cases read.all bytes with
  | error fault => simp
  | ok p' =>
    by_cases hname : p'.package = package.text
    · simp only [if_pos hname, Except.ok.injEq]
      exact ⟨fun h => ⟨h, h ▸ hname⟩, And.left⟩
    · simp only [if_neg hname, Except.ok.injEq]
      refine ⟨nofun, fun ⟨h, hpackage⟩ => ?_⟩
      exact absurd (h ▸ hpackage) hname

theorem package_of_decode {package : QualName} {bytes : Bytes} {p : Payload}
    (h : decode package bytes = .ok p) : p.package = package.text :=
  (decode_eq_ok.1 h).2

end Payload

theorem Decoder.binary_eq_ok {package : QualName} {bytes : Bytes} {p : Payload} :
    Decoder.binary package bytes = .ok p ↔ Payload.decode package bytes = .ok p :=
  except_mapError_eq_ok

end SymbolAtlas
