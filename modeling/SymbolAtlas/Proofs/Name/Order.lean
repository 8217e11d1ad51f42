import Mathlib.Logic.Function.Iterate
import Mathlib.Order.Defs.Unbundled
import SymbolAtlas.Proofs.Name.Segments

namespace SymbolAtlas

namespace QualName

variable {a b : QualName}

@[simp] theorem parent_root : root.parent = root :=
  rfl

/-- Going up a number of times comes to a name when that is the name itself, or when it is come to from
the name that encloses it. -/
theorem exists_parents_iff :
    (∃ n, parent^[n] a = b) ↔ a = b ∨ ∃ n, parent^[n] a.parent = b := by
  constructor
  · rintro ⟨n, hn⟩
    cases n with
    | zero => exact .inl hn
    | succ n => exact .inr ⟨n, hn⟩
  · rintro (rfl | ⟨n, hn⟩)
    · exact ⟨0, rfl⟩
    · exact ⟨n + 1, hn⟩

/-- What a name lies at or below is what going up from it comes to. -/
theorem IsDotted.startsWith_iff_parents (ha : a.IsDotted) :
    a.startsWith b = true ↔ ∃ n, parent^[n] a = b := by
  induction a, ha using IsDotted.induction with
  | root =>
    rw [startsWith_root]
    constructor
    · rintro rfl
      exact ⟨0, rfl⟩
    · rintro ⟨n, rfl⟩
      exact Function.iterate_fixed parent_root n
  | child p n hp hn ih =>
    rw [startsWith_child hn.isSegment, exists_parents_iff, parent_child hn.isSegment, ih]

end QualName

/-- The name of a package, without white space. -/
structure PackageName where
  name : QualName
  valid : name.isValidPackage = true
  noBlank : ∀ c ∈ name.chars, Text.isBlank c = false

namespace PackageName

/-- The package that encloses all others. -/
def root : PackageName :=
  ⟨QualName.root, rfl, nofun⟩

variable {a b c : PackageName}

theorem isDotted (a : PackageName) : a.name.IsDotted :=
  .of_isValidPackage a.valid a.noBlank

theorem startsWith_iff_segments :
    a.name.startsWith b.name = true ↔ b.name.segments <+: a.name.segments := by
  rw [a.isDotted.startsWith_iff, and_iff_right b.isDotted]

theorem segments_inj (h : a.name.segments = b.name.segments) : a = b := by
  have hname := a.isDotted.segments_inj b.isDotted h
  cases a
  cases b
  exact (PackageName.mk.injEq ..).mpr hname

/-- **To lie at or below a package is to have its segments first.** It is also to be enclosed by it, at
once or at some remove. So it is a partial order, and everything lies below the root. -/
theorem startsWith_order :
    (∀ a b : PackageName,
      (a.name.startsWith b.name = true ↔ b.name.segments <+: a.name.segments) ∧
      (a.name.startsWith b.name = true ↔ ∃ n, QualName.parent^[n] a.name = b.name)) ∧
    IsPartialOrder PackageName (fun b a => a.name.startsWith b.name = true) ∧
    ∀ a : PackageName, a.name.startsWith root.name = true := by
  refine ⟨fun a b => ⟨startsWith_iff_segments, a.isDotted.startsWith_iff_parents⟩, ?_, fun a => rfl⟩
  simp only [startsWith_iff_segments]
  exact
    { refl := fun a => List.prefix_refl _
      trans := fun a b c hab hbc => hab.trans hbc
      antisymm := fun a b hab hba => segments_inj (hab.eq_of_length_le hba.length_le) }

/-- A text that begins as another one is not below it unless a segment ends there. -/
example : (QualName.ofText "media.audio").startsWith (QualName.ofText "media.au") = false := by
  decide +kernel

end PackageName

end SymbolAtlas
