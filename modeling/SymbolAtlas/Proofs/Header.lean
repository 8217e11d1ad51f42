import SymbolAtlas.Header
import SymbolAtlas.Proofs.Binary.Local

namespace SymbolAtlas.Header

open Binary

/-- The header names its module, and its packages have names that they can have. -/
structure Valid (h : Header) : Prop where
  named : h.moduleName ≠ ""
  packages : ∀ name ∈ h.packages, QualName.validPackage name = true

variable {h h' : Header} {bytes : Bytes}

theorem validate_eq_ok : h.validate = .ok h' ↔ h = h' ∧ h.Valid := by
  unfold validate
  by_cases hname : h.moduleName = ""
  · rw [if_pos (String.isEmpty_iff.2 hname)]
    exact ⟨nofun, fun ⟨_, hvalid⟩ => absurd hname hvalid.named⟩
  · rw [if_neg (mt String.isEmpty_iff.1 hname)]
    split
    · rename_i package hfind
      have hbad : QualName.validPackage package = false := by
        simpa using List.find?_some hfind
      refine ⟨nofun, fun ⟨_, hvalid⟩ => ?_⟩
      rw [hvalid.packages package (List.mem_of_find?_eq_some hfind)] at hbad
      cases hbad
    · rename_i hfind
      have hall : ∀ name ∈ h.packages, QualName.validPackage name = true := by
        simpa using List.find?_eq_none.1 hfind
      rw [Except.ok.injEq]
      exact ⟨fun heq => ⟨heq, hname, hall⟩, And.left⟩

theorem local_read : Local read :=
  local_readText.bind fun _ => (local_readList local_readText).returns

theorem decode_eq_ok : decode bytes = .ok h ↔
    ∃ body, bytes = magic ++ body ∧ Takes read body h ∧ h.Valid := by
  unfold decode
  by_cases hmagic : magic <+: bytes
  · obtain ⟨body, rfl⟩ := hmagic
    rw [if_pos (by simp), List.drop_left]
    cases hall : read.all body with
    | ok h' =>
      have htakes := local_read.all_eq_ok.1 hall
      simp only [validate_eq_ok]
      constructor
      · rintro ⟨rfl, hvalid⟩
        exact ⟨body, rfl, htakes, hvalid⟩
      · rintro ⟨body', heq, htakes', hvalid⟩
        obtain rfl := List.append_cancel_left heq
        obtain rfl := htakes.unique htakes'
        exact ⟨rfl, hvalid⟩
    | error fault =>
      refine ⟨nofun, fun ⟨body', heq, htakes, _⟩ => ?_⟩
      obtain rfl := List.append_cancel_left heq
      cases hall.symm.trans htakes.all
  · rw [if_neg (mt List.isPrefixOf_iff_prefix.1 hmagic)]
    refine ⟨nofun, fun ⟨body, heq, _⟩ => ?_⟩
    exact absurd ⟨body, heq.symm⟩ hmagic

/-- A header is not read from fewer bytes than it is written with. -/
theorem length_body_le (htakes : Takes read bytes h) : h.body.length ≤ bytes.length := by
  obtain ⟨front, more, moduleName, rfl, hname, hmore⟩ := Takes.parts local_readText htakes
  obtain ⟨packages, hpackages, rfl⟩ := hmore.of_returns (local_readList local_readText)
  have hfront := hname.writeText_length_le
  have hlist := hpackages.writeList_length_le local_readText Takes.writeText_length_le
  simp only [body, List.length_append]
  omega

end SymbolAtlas.Header
