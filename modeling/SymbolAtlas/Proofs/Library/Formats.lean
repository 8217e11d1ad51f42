import SymbolAtlas.Proofs.Library.Parts
import SymbolAtlas.Proofs.Payload.Local

namespace SymbolAtlas

open Binary

/-! ## Headers -/

namespace Header

variable {h : Header} {bytes : Bytes}

theorem parse_eq_ok {library : String} : parse library bytes = .ok h ↔
    ∃ body, bytes = magic ++ body ∧ Takes read body h ∧ h.Valid :=
  except_mapError_eq_ok.trans decode_eq_ok

theorem parse_cases (library : String) (bytes : Bytes) : (∃ h, parse library bytes = .ok h) ∨
    ∃ message, parse library bytes = .error (.corruptHeader library message) := by
  unfold parse
  cases decode bytes with
  | ok h => exact .inl ⟨h, rfl⟩
  | error fault => exact .inr ⟨fault.message, rfl⟩

theorem eq_file_of_encode? (henc : h.encode? = some bytes) :
    bytes = h.file ∧ Takes read h.body h := by
  have hfile := encode?_eq_some (h := h) (by rw [henc]; rfl)
  exact ⟨Option.some.inj (henc.symm.trans hfile.1), takes_body hfile.2⟩

/-- **Headers are written and read.** A header that can be written reads back from its file if it is
valid, and its file is refused as corrupt otherwise. A header that is read from any file and written
again gives a file that is no longer and reads as the same header. -/
theorem parse_encode :
    (∀ (library : String) (h : Header) (bytes : Bytes), h.encode? = some bytes →
      (h.Valid → parse library bytes = .ok h) ∧
        (¬ h.Valid → ∃ message, parse library bytes = .error (.corruptHeader library message))) ∧
    ∀ (library : String) (h : Header) (bytes again : Bytes), parse library bytes = .ok h →
      h.encode? = some again → again.length ≤ bytes.length ∧ parse library again = .ok h := by
  constructor
  · intro library h bytes henc
    obtain ⟨rfl, htakes⟩ := eq_file_of_encode? henc
    refine ⟨fun hvalid => parse_eq_ok.2 ⟨h.body, rfl, htakes, hvalid⟩, fun hinvalid => ?_⟩
    refine (parse_cases library h.file).resolve_left fun ⟨h', hparse⟩ => hinvalid ?_
    obtain ⟨body, heq, htakes', hvalid⟩ := parse_eq_ok.1 hparse
    obtain rfl := List.append_cancel_left heq
    exact htakes.unique htakes' ▸ hvalid
  · intro library h bytes again hparse henc
    obtain ⟨rfl, htakes⟩ := eq_file_of_encode? henc
    obtain ⟨body, rfl, hbody, hvalid⟩ := parse_eq_ok.1 hparse
    refine ⟨?_, parse_eq_ok.2 ⟨h.body, rfl, htakes, hvalid⟩⟩
    have hle := length_body_le hbody
    rw [file, List.length_append, List.length_append]
    omega

/-- A header with the root package in it. -/
def graphics : Header :=
  ⟨"gfx", ["gfx", "", "gfx.image"]⟩

/-- A file of `graphics` with the length of the name in eight bytes and the number of packages in
two. -/
def graphicsWide : Bytes :=
  magic ++ (253 :: littleEndian 8 3 ++ Text.bytesOfText "gfx") ++
    (251 :: littleEndian 2 3 ++ graphics.packages.flatMap writeText)

/-- A header that can be written and not read. -/
def climbing : Header :=
  ⟨"gfx", ["gfx", "gfx/../.."]⟩

theorem graphics_valid : graphics.Valid :=
  ⟨by decide, by decide⟩

theorem parse_graphicsWide : parse "gfx" graphicsWide = .ok graphics := rfl

theorem parse_encode_wide :
    graphics.encode? = some graphics.file ∧ graphics.Valid ∧
      parse "gfx" graphics.file = .ok graphics ∧
      climbing.encode? = some climbing.file ∧ ¬ climbing.Valid ∧
      (∃ message, parse "gfx" climbing.file = .error (.corruptHeader "gfx" message)) ∧
      parse "gfx" graphicsWide = .ok graphics ∧ graphics.file.length ≤ graphicsWide.length := by
  have hgraphics : graphics.encode? = some graphics.file := rfl
  have hclimbing : climbing.encode? = some climbing.file := rfl
  have hinvalid : ¬ climbing.Valid := fun h => absurd (h.packages "gfx/../.." (by decide)) (by decide)
  exact ⟨hgraphics, graphics_valid, (parse_encode.1 "gfx" _ _ hgraphics).1 graphics_valid,
    hclimbing, hinvalid, (parse_encode.1 "gfx" _ _ hclimbing).2 hinvalid, parse_graphicsWide,
    (parse_encode.2 "gfx" _ _ _ parse_graphicsWide hgraphics).1⟩

end Header

/-! ## Files that are cut or go on -/

theorem Header.parse_prefixFree : PrefixFree Header.parse := by
  apply prefixFree
  intro library library' bytes more h h' hparse hmore
  obtain ⟨body, rfl, htakes, -⟩ := parse_eq_ok.1 hparse
  obtain ⟨body', heq, htakes', -⟩ := parse_eq_ok.1 hmore
  rw [List.append_assoc] at heq
  obtain rfl := List.append_cancel_left heq
  exact htakes.eq_nil htakes'

theorem Decoder.binary_prefixFree : PrefixFree Decoder.binary := by
  apply prefixFree
  intro package package' bytes more p p' hdecode hmore
  obtain ⟨htakes, -⟩ := Payload.decode_eq_ok.1 (Decoder.binary_eq_ok.1 hdecode)
  obtain ⟨htakes', -⟩ := Payload.decode_eq_ok.1 (Decoder.binary_eq_ok.1 hmore)
  exact htakes.eq_nil htakes'

/-- **No readable file begins another.** If bytes are accepted as a header, or as the payload of some
package, then longer bytes that begin with them are refused, and so are bytes that they begin with. -/
theorem files_prefixFree : PrefixFree Header.parse ∧ PrefixFree Decoder.binary :=
  ⟨Header.parse_prefixFree, Decoder.binary_prefixFree⟩

theorem files_prefixFree_cut :
    Header.parse "gfx" Header.graphicsWide = .ok Header.graphics ∧
      (∃ e, Header.parse "gfx" (Header.graphicsWide ++ [0]) = .error e) ∧
      (∃ e, Header.parse "gfx" (Header.graphicsWide.take 20) = .error e) ∧
      Decoder.binary (QualName.ofText "été.graph") Payload.limits.write = .ok Payload.limits ∧
      (∃ e, Decoder.binary (QualName.ofText "été") (Payload.limits.write ++ [0, 0]) = .error e) ∧
      ∃ e, Decoder.binary (QualName.ofText "été") (Payload.limits.write.take 100) = .error e := by
  have hlimits : Decoder.binary (QualName.ofText "été.graph") Payload.limits.write =
      .ok Payload.limits := by
    have henc : Payload.limits.encode? = some Payload.limits.write := if_pos (by decide +kernel)
    exact Decoder.binary_eq_ok.2 (Payload.decode_eq_ok.2 ⟨Payload.takes_encode henc, by decide⟩)
  obtain ⟨hheader, hpayload⟩ := files_prefixFree
  have hheaderCut := hheader "gfx" _ _ Header.parse_graphicsWide "gfx"
  have hpayloadCut := hpayload _ _ _ hlimits (QualName.ofText "été")
  have htail : Payload.limits.write.drop 100 ≠ [] := by decide +kernel
  exact ⟨Header.parse_graphicsWide, (hheaderCut [0] (by decide)).1,
    (hheaderCut (Header.graphicsWide.drop 20) (by decide)).2 _ (List.take_append_drop 20 _),
    hlimits, (hpayloadCut [0, 0] (by decide)).1,
    (hpayloadCut _ htail).2 _ (List.take_append_drop 100 _)⟩

end SymbolAtlas
