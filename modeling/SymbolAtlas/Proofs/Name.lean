import SymbolAtlas.Manifest
import SymbolAtlas.Proofs.Text

namespace SymbolAtlas

/-! ## Names -/

/-- The name is a single segment, without white space at its ends. -/
structure Name.IsSegment (n : Name) : Prop where
  trimmed : Text.IsTrimmed n.text.toList
  dotless : '.' ∉ n.text.toList

namespace QualName

variable {a : QualName} {s : List Char}

theorem chars_ofChars (h : Text.IsTrimmed s) : (ofChars s).chars = s := by
  rw [chars, text_ofChars, Text.trim_eq_self_iff.2 h, String.toList_ofList]

@[simp] theorem ofChars_chars (a : QualName) : ofChars a.chars = a :=
  ofText_text a

theorem chars_inj {b : QualName} (h : a.chars = b.chars) : a = b := by
  rw [← ofChars_chars a, h, ofChars_chars]

theorem isTrimmed_chars (a : QualName) : Text.IsTrimmed a.chars :=
  Text.trim_eq_self_iff.1 a.trimmed

theorem isRoot_iff : a.isRoot = true ↔ a = root := by
  rw [isRoot, List.isEmpty_iff]
  exact ⟨fun h => chars_inj h, fun h => h ▸ rfl⟩

/-- A name without white space at its last dot. -/
theorem chars_split (hblank : ∀ c ∈ a.chars, Text.isBlank c = false) {front last : List Char}
    (hsplit : Text.splitLast (· == '.') a.chars = some (front, last)) :
    a.chars = front ++ '.' :: last ∧ (ofChars front).chars = front := by
  obtain ⟨c, hc, hchars, -⟩ := Text.splitLast_eq_some hsplit
  obtain rfl := beq_iff_eq.1 hc
  refine ⟨hchars, chars_ofChars (Text.isTrimmed_of_no_blank fun x hx => hblank x ?_)⟩
  rw [hchars]
  exact List.mem_append_left _ hx

/-- In the root package, a segment is a name. -/
theorem chars_child_root {n : Name} (hn : n.IsSegment) (hroot : a.isRoot = true) :
    (a.child n).chars = n.text.toList := by
  rw [child, if_pos hroot]
  exact chars_ofChars hn.trimmed

/-- Elsewhere, a segment is added behind a dot. -/
theorem chars_child_outer {n : Name} (hn : n.IsSegment) (houter : ¬ a.isRoot = true) :
    (a.child n).chars = a.chars ++ '.' :: n.text.toList := by
  have hne : a.chars ≠ [] := fun h => houter (List.isEmpty_iff.2 h)
  rw [child, if_neg houter]
  exact chars_ofChars (Text.isTrimmed_join a.isTrimmed_chars hne (by decide) hn.trimmed)

/-- A name in a package is the package and its last segment together. -/
theorem child_parent_of_outer (hblank : ∀ c ∈ a.chars, Text.isBlank c = false)
    (houter : a.parent.isRoot = false) : a.parent.child a.shortName = a := by
  rw [child, houter]
  unfold parent shortName at *
  cases hsplit : Text.splitLast (· == '.') a.chars with
  | none =>
    rw [hsplit] at houter
    cases houter
  | some parts =>
    obtain ⟨hchars, hfront⟩ := chars_split hblank hsplit
    dsimp only
    rw [hfront, String.toList_ofList, ← hchars]
    exact ofChars_chars a

/-- A name whose first segment is not empty is its parent and its last segment together. -/
theorem child_parent (hblank : ∀ c ∈ a.chars, Text.isBlank c = false)
    (hdot : a.chars.head? ≠ some '.') : a.parent.child a.shortName = a := by
  cases hsplit : Text.splitLast (· == '.') a.chars with
  | none =>
    rw [parent, shortName, hsplit]
    exact ofText_text a
  | some parts =>
    obtain ⟨front, last⟩ := parts
    obtain ⟨hchars, hfront⟩ := chars_split hblank hsplit
    refine child_parent_of_outer hblank ?_
    rw [parent, hsplit]
    dsimp only
    rw [isRoot, hfront]
    cases front with
    | nil => exact absurd (by rw [hchars]; rfl) hdot
    | cons x rest => rfl

/-- The last segment of a name without white space is a segment. -/
theorem isSegment_shortName (hblank : ∀ c ∈ a.chars, Text.isBlank c = false) :
    a.shortName.IsSegment := by
  unfold shortName
  cases hsplit : Text.splitLast (· == '.') a.chars with
  | none =>
    refine ⟨a.isTrimmed_chars, fun hdot => ?_⟩
    cases Text.splitLast_eq_none hsplit '.' hdot
  | some parts =>
    obtain ⟨front, last⟩ := parts
    obtain ⟨c, hc, hchars, hlast⟩ := Text.splitLast_eq_some hsplit
    dsimp only
    constructor
    · rw [String.toList_ofList]
      refine Text.isTrimmed_of_no_blank fun x hx => hblank x ?_
      rw [hchars]
      exact List.mem_append_right _ (List.mem_cons_of_mem _ hx)
    · rw [String.toList_ofList]
      intro hdot
      cases hlast '.' hdot

/-! ### Names of packages -/

variable {name : String}

/-- A package name has no empty segment and no path separator. -/
theorem validPackage_iff : validPackage name = true ↔
    name = "" ∨ [] ∉ name.toList.splitOn '.' ∧ '/' ∉ name.toList ∧ '\\' ∉ name.toList := by
  have hfree {c : Char} (hc : c ≠ '.') :
      (∀ w ∈ name.toList.splitOn '.', c ∉ w) ↔ c ∉ name.toList := by
    constructor
    · intro h hmem
      obtain ⟨w, hw, hcw⟩ := Text.exists_mem_splitOn hc hmem
      exact h w hw hcw
    · exact fun h w hw hcw => h ((Text.isInfix_of_mem_splitOn hw).subset hcw)
  have hsegment (w : List Char) : (!w.isEmpty && !w.contains '/' && !w.contains '\\') = true ↔
      w ≠ [] ∧ '/' ∉ w ∧ '\\' ∉ w := by
    simp [and_assoc]
  simp only [validPackage, Bool.or_eq_true, String.isEmpty_iff, List.all_eq_true, hsegment,
    forall_and, hfree (show '/' ≠ '.' by decide), hfree (show '\\' ≠ '.' by decide)]
  refine or_congr_right (and_congr_left' ?_)
  exact ⟨fun h hmem => h [] hmem rfl, fun h w hw hnil => h (hnil ▸ hw)⟩

theorem slash_not_mem_of_validPackage (h : validPackage name = true) : '/' ∉ name.toList := by
  rcases validPackage_iff.1 h with rfl | ⟨-, hslash, -⟩
  · exact List.not_mem_nil
  · exact hslash

/-- One end of the text is a segment of nothing but white space, with a dot beside it. -/
def BlankEnd (s : List Char) : Prop :=
  ∃ blank rest, (∀ c ∈ blank, Text.isBlank c = true) ∧
    (s = blank ++ '.' :: rest ∨ s = rest ++ '.' :: blank)

/-- A text that is a package name names a package that is one unless white space stands for a segment
at an end. -/
theorem isValidPackage_ofText (h : validPackage name = true) :
    (ofText name).isValidPackage = true ↔ ¬ BlankEnd name.toList := by
  have htext : (ofText name).text.toList = Text.trim name.toList := String.toList_ofList
  have hdot : Text.isBlank '.' = false := by decide
  rw [isValidPackage, validPackage_iff, htext]
  constructor
  · rintro hvalid ⟨blank, rest, hblank, hname⟩
    have hends : (Text.trim name.toList).head? = some '.' ∨
        (Text.trim name.toList).getLast? = some '.' := by
      rcases hname with hname | hname <;> rw [hname]
      · exact .inl (Text.head?_trim hblank hdot rest)
      · exact .inr (Text.getLast?_trim hblank hdot rest)
    rcases hvalid with hroot | ⟨hnil, -⟩
    · rw [← htext, hroot] at hends
      rcases hends with hends | hends <;> cases hends
    · exact hnil (Text.nil_mem_splitOn_iff.2 (.inr (hends.imp_right .inl)))
  · intro hends
    obtain ⟨front, back, hname, hfront, hback⟩ := Text.exists_trim_append name.toList
    have hmem {c : Char} (hc : c ∈ Text.trim name.toList) : c ∈ name.toList := Text.mem_of_mem_trim hc
    rcases validPackage_iff.1 h with rfl | ⟨hnil, hslash, hback'⟩
    · exact .inl rfl
    refine Classical.or_iff_not_imp_left.2 fun hne =>
      ⟨fun hsegment => ?_, mt hmem hslash, mt hmem hback'⟩
    -- An empty segment at an end of the trimmed text has white space in its place before trimming.
    rcases Text.nil_mem_splitOn_iff.1 hsegment with hempty | hhead | hlast | hpair
    · exact hne (String.toList_eq_nil_iff.1 (htext.trans hempty))
    · obtain ⟨rest, hrest⟩ := List.head?_eq_some_iff.1 hhead
      exact hends ⟨front, rest ++ back, hfront, .inl (by simpa [hrest] using hname)⟩
    · obtain ⟨rest, hrest⟩ := List.getLast?_eq_some_iff.1 hlast
      exact hends ⟨back, front ++ rest, hback, .inr (by simpa [hrest] using hname)⟩
    · exact hnil (Text.nil_mem_splitOn_iff.2 (.inr (.inr (.inr
        (hpair.trans (Text.trim_isInfix name.toList))))))

end QualName

namespace ClassId

/-- The dotted name of the class that a dotted name names. -/
theorem qualName_ofQualName {a : QualName} (hblank : ∀ c ∈ a.chars, Text.isBlank c = false)
    (hdot : a.chars.head? ≠ some '.') : (ofQualName a).qualName = a :=
  QualName.child_parent hblank hdot

/-- A name with one more segment, split again. -/
theorem ofQualName_child (package : QualName) {n : Name} (hn : n.IsSegment) :
    ofQualName (package.child n) = ⟨package, n⟩ := by
  have hlast : ∀ x ∈ n.text.toList, (x == '.') = false := by
    intro x hx
    simpa using fun heq : x = '.' => hn.dotless (heq ▸ hx)
  by_cases hroot : package.isRoot = true
  · have htext : (package.child n).text = n.text := by
      rw [← String.toList_inj]
      exact QualName.chars_child_root hn hroot
    rw [ofQualName, QualName.parent, QualName.shortName, QualName.chars_child_root hn hroot,
      Text.splitLast_none hlast, QualName.isRoot_iff.1 hroot]
    dsimp only
    rw [← QualName.isRoot_iff.1 hroot, htext]
  · have hsplit := Text.splitLast_append (p := (· == '.')) package.chars (c := '.') rfl hlast
    rw [ofQualName, QualName.parent, QualName.shortName, QualName.chars_child_outer hn hroot, hsplit]
    dsimp only
    rw [QualName.ofChars_chars, String.ofList_toList]

/-- A class of a single segment is the one that its dotted name names. -/
theorem ofQualName_qualName {id : ClassId} (h : id.relative.IsSegment) :
    ofQualName id.qualName = id :=
  ofQualName_child id.package h

/-- Without a slash, a text is read as a dotted name. -/
theorem parse_of_no_slash {s : String} (h : '/' ∉ Text.trim s.toList) :
    parse s = ofQualName (QualName.ofChars (Text.trim s.toList)) := by
  have hnone : Text.splitFirst (· == '/') (Text.trim s.toList) = none :=
    Text.splitFirst_eq_none.2 fun x hx => by simpa using fun heq : x = '/' => h (heq ▸ hx)
  rw [parse, hnone]

theorem parse_text {a : QualName} (h : '/' ∉ a.chars) : parse a.text = ofQualName a := by
  have htrim : Text.trim a.text.toList = a.chars := a.trimmed
  rw [parse_of_no_slash (htrim ▸ h), htrim, QualName.ofChars_chars]

end ClassId

/-- A manifest does not state the root as its package. -/
theorem Manifest.isRoot_package {m : Manifest} {package : QualName} (h : m.package = some package) :
    package.isRoot = false := by
  simpa using (Option.filter_eq_some_iff.1 h).2

/-- A declaration that a manifest exports holds no white space. -/
theorem Manifest.no_blank_of_exported {m : Manifest} {d : QualName}
    (h : d ∈ m.exportedForwardDeclarations) : ∀ c ∈ d.chars, Text.isBlank c = false := by
  obtain ⟨word, hword, rfl⟩ := List.mem_map.1 h
  unfold list at hword
  split at hword
  · obtain ⟨w, hw, rfl⟩ := List.mem_map.1 hword
    have hblank := Text.no_blank_of_mem_words hw
    rw [QualName.ofText, String.toList_ofList, QualName.chars, QualName.text_ofChars,
      Text.trim_eq_self_iff.2 (Text.isTrimmed_of_no_blank hblank), String.toList_ofList]
    exact hblank
  · cases hword

end SymbolAtlas
