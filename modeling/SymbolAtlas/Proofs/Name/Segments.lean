import SymbolAtlas.Proofs.Name

/-!
# The tree of dotted names

Dotted names whose segments are not empty and hold no white space form a tree. Its root is the root
package, and below each name there is one name for each segment.

* `QualName.IsDotted.cases`: such a name is the root, or another one with one more segment;
* `QualName.startsWith_child`: a name lies at or below another one when it is that name, or lies a
  segment below one that does;
* `QualName.IsDotted.startsWith_iff`: to lie at or below a name is to have its segments first.
-/

namespace SymbolAtlas

/-- A segment that is not empty and holds no white space. -/
structure Name.IsPlain (n : Name) : Prop where
  nonempty : n.text.toList ≠ []
  dotless : '.' ∉ n.text.toList
  noBlank : ∀ c ∈ n.text.toList, Text.isBlank c = false

theorem Name.IsPlain.isSegment {n : Name} (h : n.IsPlain) : n.IsSegment :=
  ⟨Text.isTrimmed_of_no_blank h.noBlank, h.dotless⟩

namespace QualName

/-- The root, or a name of segments that are not empty and hold no white space. -/
structure IsDotted (a : QualName) : Prop where
  noBlank : ∀ c ∈ a.chars, Text.isBlank c = false
  segments : a = root ∨ [] ∉ a.chars.splitOn '.'

variable {a b p : QualName} {n : Name}

/-- The name of a package has segments that are not empty. -/
theorem IsDotted.of_isValidPackage (hvalid : a.isValidPackage = true)
    (hblank : ∀ c ∈ a.chars, Text.isBlank c = false) : a.IsDotted := by
  refine ⟨hblank, ?_⟩
  rcases validPackage_iff.1 hvalid with htext | ⟨hsegments, -⟩
  · exact .inl (text_inj.1 htext)
  · exact .inr hsegments

theorem isDotted_root : root.IsDotted :=
  ⟨nofun, .inl rfl⟩

@[simp] theorem segments_root : root.segments = [] :=
  rfl

/-! ## One segment more -/

/-- A segment more adds a piece at the end, unless the name was the root. -/
theorem splitOn_child (hn : n.IsSegment) : (p.child n).chars.splitOn '.' =
    if p.isRoot then [n.text.toList] else p.chars.splitOn '.' ++ [n.text.toList] := by
  split
  · rename_i hroot
    rw [chars_child_root hn hroot, List.splitOn_eq_singleton hn.dotless]
  · rename_i houter
    rw [chars_child_outer hn houter, List.splitOn_append_cons_self,
      List.splitOn_eq_singleton hn.dotless]

theorem segments_child (hn : n.IsPlain) : (p.child n).segments = p.segments ++ [n] := by
  have hlast : ([n.text.toList].filter fun s => !s.isEmpty).map (fun s => Name.mk (String.ofList s)) =
      [n] := by
    simp [hn.nonempty]
  rw [segments, splitOn_child hn.isSegment]
  split
  · rename_i hroot
    rw [hlast, isRoot_iff.1 hroot]
    rfl
  · rw [List.filter_append, List.map_append, hlast]
    rfl

theorem IsDotted.child (hp : p.IsDotted) (hn : n.IsPlain) : (p.child n).IsDotted := by
  constructor
  · intro c hc
    by_cases hroot : p.isRoot = true
    · rw [chars_child_root hn.isSegment hroot] at hc
      exact hn.noBlank c hc
    · rw [chars_child_outer hn.isSegment hroot] at hc
      rcases List.mem_append.1 hc with hc | hc
      · exact hp.noBlank c hc
      · rcases List.mem_cons.1 hc with rfl | hc
        · decide
        · exact hn.noBlank c hc
  · right
    rw [splitOn_child hn.isSegment]
    split
    · simpa using hn.nonempty
    · rename_i houter
      have hsegments := hp.segments.resolve_left fun h => houter (isRoot_iff.2 h)
      simp [hsegments, hn.nonempty]

theorem child_ne_root (hn : n.IsPlain) : p.child n ≠ root := by
  intro h
  have hsegments := segments_child (p := p) hn
  rw [h, segments_root] at hsegments
  simp at hsegments

theorem parent_child (hn : n.IsSegment) : (p.child n).parent = p :=
  congrArg ClassId.package (ClassId.ofQualName_child p hn)

/-- A name below the root is a segment more than the name that encloses it. -/
theorem IsDotted.exists_child (ha : a.IsDotted) (hroot : a ≠ root) :
    a.parent.IsDotted ∧ a.shortName.IsPlain ∧ a = a.parent.child a.shortName := by
  have hsegments := ha.segments.resolve_left hroot
  have hdot : a.chars.head? ≠ some '.' := fun h =>
    hsegments (Text.nil_mem_splitOn_iff.2 (.inr (.inl h)))
  refine ⟨?_, ?_, (child_parent ha.noBlank hdot).symm⟩
  · unfold parent
    cases hsplit : Text.splitLast (· == '.') a.chars with
    | none => exact isDotted_root
    | some parts =>
      obtain ⟨hchars, hfront⟩ := chars_split ha.noBlank hsplit
      rw [hchars, List.splitOn_append_cons_self] at hsegments
      refine ⟨fun c hc => ?_, .inr ?_⟩
      · rw [hfront] at hc
        exact ha.noBlank c (hchars ▸ List.mem_append_left _ hc)
      · rw [hfront]
        exact fun h => hsegments (List.mem_append_left _ h)
  · have hsegment := isSegment_shortName ha.noBlank
    refine ⟨fun hempty => ?_, hsegment.dotless, fun c hc => ?_⟩
    · -- An empty last segment would be a piece of the name.
      unfold shortName at hempty
      cases hsplit : Text.splitLast (· == '.') a.chars with
      | none =>
        rw [hsplit] at hempty
        exact hroot (isRoot_iff.1 (List.isEmpty_iff.2 hempty))
      | some parts =>
        rw [hsplit, String.toList_ofList] at hempty
        obtain ⟨hchars, -⟩ := chars_split ha.noBlank hsplit
        rw [hchars, hempty, List.splitOn_append_cons_self] at hsegments
        exact hsegments (List.mem_append_right _ (by simp))
    · unfold shortName at hc
      cases hsplit : Text.splitLast (· == '.') a.chars with
      | none =>
        rw [hsplit] at hc
        exact ha.noBlank c hc
      | some parts =>
        rw [hsplit, String.toList_ofList] at hc
        obtain ⟨hchars, -⟩ := chars_split ha.noBlank hsplit
        exact ha.noBlank c (hchars ▸ List.mem_append_right _ (List.mem_cons_of_mem _ hc))

/-- Such a name is the root, or another one with one more segment. -/
theorem IsDotted.cases {motive : ∀ a : QualName, a.IsDotted → Prop} (root : motive root isDotted_root)
    (child : ∀ (p : QualName) (n : Name) (hp : p.IsDotted) (hn : n.IsPlain),
      motive (p.child n) (hp.child hn))
    (a : QualName) (ha : a.IsDotted) : motive a ha := by
  by_cases hroot : a = .root
  · subst hroot
    exact root
  · obtain ⟨hp, hn, hchild⟩ := ha.exists_child hroot
    generalize a.parent = p, a.shortName = n at hp hn hchild
    subst hchild
    exact child p n hp hn

/-- Along the segments of a name. -/
theorem IsDotted.induction {motive : ∀ a : QualName, a.IsDotted → Prop}
    (root : motive root isDotted_root)
    (child : ∀ (p : QualName) (n : Name) (hp : p.IsDotted) (hn : n.IsPlain),
      motive p hp → motive (p.child n) (hp.child hn))
    (a : QualName) (ha : a.IsDotted) : motive a ha := by
  generalize hlength : a.segments.length = k
  induction k generalizing a with
  | zero =>
    cases a, ha using IsDotted.cases with
    | root => exact root
    | child p n hp hn =>
      rw [segments_child hn, List.length_append] at hlength
      cases hlength
  | succ k ih =>
    cases a, ha using IsDotted.cases with
    | root => cases hlength
    | child p n hp hn =>
      rw [segments_child hn, List.length_append] at hlength
      exact child p n hp hn (ih p hp (Nat.succ.inj hlength))

/-! ## Segments -/

theorem IsDotted.segments_inj (ha : a.IsDotted) (hb : b.IsDotted) (h : a.segments = b.segments) :
    a = b := by
  induction a, ha using IsDotted.induction generalizing b with
  | root =>
    cases b, hb using IsDotted.cases with
    | root => rfl
    | child q m hq hm => simp [segments_child hm] at h
  | child p n hp hn ih =>
    cases b, hb using IsDotted.cases with
    | root => simp [segments_child hn] at h
    | child q m hq hm =>
      rw [segments_child hn, segments_child hm] at h
      obtain ⟨hpq, hnm⟩ := List.append_inj' h rfl
      rw [ih hq hpq, List.singleton_inj.1 hnm]

theorem startsWith_root : root.startsWith b = true ↔ b = root := by
  have hprefix : (b.chars ++ ['.']).isPrefixOf root.chars = false := by
    cases hb : b.chars with
    | nil => rfl
    | cons c rest => rfl
  rw [startsWith, hprefix, Bool.or_false, Bool.or_eq_true, isRoot_iff, beq_iff_eq]
  exact ⟨fun h => h.elim id Eq.symm, .inl⟩

theorem startsWith_iff : a.startsWith b = true ↔ b = root ∨ a = b ∨ b.chars ++ ['.'] <+: a.chars := by
  rw [startsWith, Bool.or_eq_true, Bool.or_eq_true, isRoot_iff, beq_iff_eq, List.isPrefixOf_iff_prefix,
    or_assoc]

/-- A name lies at or below another one when it is that name, or when the name that encloses it lies
there. -/
theorem startsWith_child (hn : n.IsSegment) :
    (p.child n).startsWith b = true ↔ p.child n = b ∨ p.startsWith b = true := by
  have hdot {s : List Char} : ¬ s ++ ['.'] <+: n.text.toList := fun h => hn.dotless (h.subset (by simp))
  by_cases hroot : p.isRoot = true
  · rw [isRoot_iff.1 hroot, startsWith_root, startsWith_iff, chars_child_root hn rfl]
    simp only [hdot, or_false]
    exact or_comm
  · rw [startsWith_iff, startsWith_iff, chars_child_outer hn hroot,
      Text.prefix_append_cons_iff hn.dotless]
    have hsame : b.chars = p.chars ↔ p = b := ⟨fun h => (chars_inj h).symm, fun h => h ▸ rfl⟩
    rw [hsame]
    exact or_left_comm

/-- To lie at or below a name is to have its segments first. -/
theorem IsDotted.startsWith_iff (ha : a.IsDotted) :
    a.startsWith b = true ↔ b.IsDotted ∧ b.segments <+: a.segments := by
  induction a, ha using IsDotted.induction with
  | root =>
    rw [startsWith_root, segments_root, List.prefix_nil]
    constructor
    · rintro rfl
      exact ⟨isDotted_root, rfl⟩
    · exact fun ⟨hb, hsegments⟩ => hb.segments_inj isDotted_root hsegments
  | child p n hp hn ih =>
    rw [startsWith_child hn.isSegment, ih, segments_child hn, List.prefix_concat_iff]
    constructor
    · rintro (rfl | ⟨hb, hprefix⟩)
      · exact ⟨hp.child hn, .inl (segments_child hn)⟩
      · exact ⟨hb, .inr hprefix⟩
    · rintro ⟨hb, hsegments | hprefix⟩
      · exact .inl ((hp.child hn).segments_inj hb ((segments_child hn).trans hsegments.symm))
      · exact .inr ⟨hb, hprefix⟩

/-- The segments of such a name are not empty and hold no white space. -/
theorem IsDotted.isPlain (ha : a.IsDotted) (hn : n ∈ a.segments) : n.IsPlain := by
  induction a, ha using IsDotted.induction with
  | root => cases hn
  | child p m hp hm ih =>
    rw [segments_child hm] at hn
    rcases List.mem_append.1 hn with hn | hn
    · exact ih hn
    · exact List.mem_singleton.1 hn ▸ hm

/-- To lie below a name, on the way through a segment, is to have that segment after those of the
name. -/
theorem IsDotted.startsWith_child_iff (ha : a.IsDotted) (hp : p.IsDotted) (hn : n.IsPlain) :
    a.startsWith (p.child n) = true ↔
      a.startsWith p = true ∧ a.segments[p.segments.length]? = some n := by
  rw [ha.startsWith_iff, ha.startsWith_iff, segments_child hn]
  constructor
  · rintro ⟨-, rest, hrest⟩
    rw [← hrest]
    exact ⟨⟨hp, List.append_assoc .. ▸ List.prefix_append ..⟩, by simp⟩
  · rintro ⟨⟨-, rest, hrest⟩, hnext⟩
    refine ⟨hp.child hn, ?_⟩
    rw [← hrest, List.getElem?_append_right (Nat.le_refl _), Nat.sub_self] at hnext
    obtain ⟨tail, rfl⟩ : ∃ tail, rest = n :: tail := by
      cases rest with
      | nil => cases hnext
      | cons x tail => exact ⟨tail, by simpa using hnext⟩
    exact ⟨tail, by rw [← hrest, List.append_assoc]; rfl⟩

end QualName

end SymbolAtlas
