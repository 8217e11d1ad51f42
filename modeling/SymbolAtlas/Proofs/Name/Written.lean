import SymbolAtlas.Proofs.Name.Segments

/-!
# Class ids as they are written

A class id is read from its package, a slash and its name in the package. The first slash ends the
package, so a slash is never read as part of a package.

* `ClassId.parse_cases`: the two ways in which a text is read;
* `ClassId.parse_toText`: which ids are read back from their text;
* `ClassId.parse_slashes`: what is read when the segments of a package stand between slashes.
-/

namespace SymbolAtlas

namespace QualName

variable {a : QualName}

theorem mem_of_mem_parent {c : Char} (h : c ∈ a.parent.chars) : c ∈ a.chars := by
  unfold parent at h
  split at h
  · rename_i front last hsplit
    obtain ⟨sep, -, hchars, -⟩ := Text.splitLast_eq_some hsplit
    rw [chars, text_ofChars, String.toList_ofList] at h
    exact hchars ▸ List.mem_append_left _ (Text.mem_of_mem_trim h)
  · cases h

/-- The last segment does not end in white space. -/
theorem getLast?_shortName (a : QualName) :
    ∀ c ∈ a.shortName.text.toList.getLast?, Text.isBlank c = false := by
  intro c hc
  unfold shortName at hc
  split at hc
  · rename_i front last hsplit
    obtain ⟨sep, -, hchars, -⟩ := Text.splitLast_eq_some hsplit
    rw [String.toList_ofList] at hc
    exact a.isTrimmed_chars.2 c (hchars ▸ Text.mem_getLast?_append_cons hc)
  · exact a.isTrimmed_chars.2 c hc

end QualName

namespace ClassId

theorem dotted_eq_self {s : List Char} (h : '/' ∉ s) : dotted s = s := by
  refine (List.map_congr_left fun c hc => ?_).trans (List.map_id s)
  exact if_neg fun heq : c = '/' => h (heq ▸ hc)

/-! ## What is read -/

/-- The text before the first slash is the package, and the text behind it is the name. -/
theorem parse_of_slash {s : String} {package relative : List Char} (hslash : '/' ∉ package)
    (hs : Text.trim s.toList = package ++ '/' :: relative) :
    parse s = ⟨QualName.ofChars package, ⟨String.ofList relative⟩⟩ := by
  have hsplit : Text.splitFirst (· == '/') (package ++ '/' :: relative) = some (package, relative) :=
    Text.splitFirst_append (fun x hx => by simpa using fun heq : x = '/' => hslash (heq ▸ hx)) rfl
      relative
  rw [parse, hs, hsplit]
  dsimp only
  rw [dotted_eq_self hslash]

/-- A text is read as a package and a name, with nothing of the package behind the first slash, or it
holds no slash and is read as a dotted name. -/
theorem parse_cases (s : String) :
    (∃ package relative, '/' ∉ package ∧ Text.trim s.toList = package ++ '/' :: relative ∧
      parse s = ⟨QualName.ofChars package, ⟨String.ofList relative⟩⟩) ∨
    ∃ a : QualName, '/' ∉ a.chars ∧ parse s = ofQualName a := by
  by_cases hslash : '/' ∈ Text.trim s.toList
  · obtain ⟨package, relative, htrim, hfirst⟩ := List.eq_append_cons_of_mem hslash
    exact .inl ⟨package, relative, hfirst, htrim, parse_of_slash hfirst htrim⟩
  · refine .inr ⟨QualName.ofChars (Text.trim s.toList), ?_, parse_of_no_slash hslash⟩
    rwa [QualName.chars_ofChars (Text.isTrimmed_trim s.toList)]

/-- A package that is read holds no slash. -/
theorem slash_not_mem_parse (s : String) : '/' ∉ (parse s).package.chars := by
  rcases parse_cases s with ⟨package, relative, hslash, -, hparse⟩ | ⟨a, hslash, hparse⟩
  · rw [hparse, QualName.chars, QualName.text_ofChars, String.toList_ofList]
    exact mt Text.mem_of_mem_trim hslash
  · rw [hparse]
    exact mt QualName.mem_of_mem_parent hslash

/-- A name that is read does not end in white space. -/
theorem getLast?_parse (s : String) :
    ∀ c ∈ (parse s).relative.text.toList.getLast?, Text.isBlank c = false := by
  rcases parse_cases s with ⟨package, relative, -, htrim, hparse⟩ | ⟨a, -, hparse⟩
  · rw [hparse, String.toList_ofList]
    intro c hc
    refine (Text.isTrimmed_trim s.toList).2 c ?_
    rw [htrim]
    exact Text.mem_getLast?_append_cons hc
  · rw [hparse]
    exact a.getLast?_shortName

/-- An id without a slash in its package is read back from its text, unless white space at its end is
dropped. -/
theorem parse_toText_self {id : ClassId} (hslash : '/' ∉ id.package.chars)
    (hlast : ∀ c ∈ id.relative.text.toList.getLast?, Text.isBlank c = false) : parse id.toText = id := by
  have hslash' : Text.isBlank '/' = false := by decide
  have htrim : Text.trim id.toText.toList = id.package.chars ++ '/' :: id.relative.text.toList := by
    have hkept := Text.trim_append_cons id.package.isTrimmed_chars.1 hslash' id.relative.text.toList
    rw [Text.trimEnd_eq_self hlast] at hkept
    rwa [toText, String.toList_append, String.toList_append, List.append_assoc]
  rw [parse_of_slash hslash htrim, QualName.ofChars_chars, String.ofList_toList]

/-- **Class ids survive printing.** A text that is read, printed and read again gives the same id. The
ids that are read back from their text are those whose package holds no slash and whose name does not
end in white space. -/
theorem parse_toText : (∀ s, parse (parse s).toText = parse s) ∧
    ∀ id : ClassId, parse id.toText = id ↔
      '/' ∉ id.package.chars ∧ ∀ c ∈ id.relative.text.toList.getLast?, Text.isBlank c = false := by
  refine ⟨fun s => parse_toText_self (slash_not_mem_parse s) (getLast?_parse s), fun id => ⟨fun h => ?_,
    fun ⟨hslash, hlast⟩ => parse_toText_self hslash hlast⟩⟩
  rw [← h]
  exact ⟨slash_not_mem_parse _, getLast?_parse _⟩

/-! ## Slashes between segments -/

/-- A segment that no separator cuts. -/
structure IsUncut (n : Name) : Prop extends n.IsPlain where
  slashless : '/' ∉ n.text.toList

theorem all_not_isBlank_iff {s : List Char} :
    s.all (!Text.isBlank ·) = true ↔ ∀ c ∈ s, Text.isBlank c = false := by
  simp

instance (n : Name) : Decidable (IsUncut n) :=
  decidable_of_iff (n.text.toList ≠ [] ∧ '.' ∉ n.text.toList ∧
      n.text.toList.all (!Text.isBlank ·) = true ∧ '/' ∉ n.text.toList)
    ⟨fun ⟨hne, hdot, hblank, hslash⟩ => ⟨⟨hne, hdot, all_not_isBlank_iff.1 hblank⟩, hslash⟩,
      fun h => ⟨h.nonempty, h.dotless, all_not_isBlank_iff.2 h.noBlank, h.slashless⟩⟩

/-- A class in a package whose segments are joined by `sep`. -/
def spell (sep : String) (segments : List Name) (relative : String) : String :=
  sep.intercalate (segments.map (·.text)) ++ "/" ++ relative

section

variable {first : Name} {rest : List Name} {relative : String}

/-- With dots between its segments, the package is read as a whole. -/
theorem parse_spell_dots {segments : List Name} (hsegments : ∀ n ∈ segments, IsUncut n)
    (hblank : ∀ c ∈ relative.toList, Text.isBlank c = false) :
    parse (spell "." segments relative) =
      ⟨QualName.ofText (".".intercalate (segments.map (·.text))), ⟨relative⟩⟩ := by
  have hmem {c : Char} (hc : c ∈ (".".intercalate (segments.map (·.text))).toList) :
      c = '.' ∨ ∃ n ∈ segments, c ∈ n.text.toList := by
    simpa using Text.mem_intercalate hc
  have hchars : (QualName.ofText (".".intercalate (segments.map (·.text)))).chars =
      (".".intercalate (segments.map (·.text))).toList := by
    refine QualName.chars_ofChars (Text.isTrimmed_of_no_blank fun c hc => ?_)
    rcases hmem hc with rfl | ⟨n, hn, hc⟩
    · decide
    · exact (hsegments n hn).noBlank c hc
  have htext : spell "." segments relative = toText
      ⟨QualName.ofText (".".intercalate (segments.map (·.text))), ⟨relative⟩⟩ := by
    rw [spell, toText, String.toList_inj.1 hchars]
  rw [htext]
  refine parse_toText_self ?_ fun c hc => hblank c (List.mem_of_getLast? hc)
  rw [hchars]
  intro hc
  rcases hmem hc with hdot | ⟨n, hn, hc⟩
  · exact absurd hdot (by decide)
  · exact (hsegments n hn).slashless hc

/-- With slashes between its segments, the package is read as its first segment, and the others as the
beginning of the name. -/
theorem parse_spell_slashes (hsegments : ∀ n ∈ first :: rest, IsUncut n)
    (hblank : ∀ c ∈ relative.toList, Text.isBlank c = false) :
    parse (spell "/" (first :: rest) relative) =
      ⟨QualName.ofText first.text, ⟨"/".intercalate (rest.map (·.text) ++ [relative])⟩⟩ := by
  obtain ⟨hfirst, hrest⟩ := List.forall_mem_cons.1 hsegments
  have hchars : (QualName.ofText first.text).chars = first.text.toList :=
    QualName.chars_ofChars hfirst.isSegment.trimmed
  have htext : spell "/" (first :: rest) relative = toText
      ⟨QualName.ofText first.text, ⟨"/".intercalate (rest.map (·.text) ++ [relative])⟩⟩ := by
    have hjoin := String.intercalate_append_of_ne_nil (s := "/")
      (List.cons_ne_nil first.text (rest.map (·.text))) (List.cons_ne_nil relative [])
    rw [String.intercalate_singleton] at hjoin
    rw [spell, List.map_cons, ← hjoin, toText, String.toList_inj.1 hchars]
    cases rest <;> simp [String.intercalate_cons_cons]
  rw [htext]
  refine parse_toText_self (hchars ▸ hfirst.slashless) fun c hc => ?_
  rcases Text.mem_intercalate (List.mem_of_getLast? hc) with hsep | ⟨w, hw, hc⟩
  · obtain rfl : c = '/' := by simpa using hsep
    decide
  · rcases List.mem_append.1 hw with hw | hw
    · obtain ⟨n, hn, rfl⟩ := List.mem_map.1 hw
      exact (hrest n hn).noBlank c hc
    · exact hblank c (List.mem_singleton.1 hw ▸ hc)

/-- **The first slash ends the package.** With dots between its segments a package is read as a whole;
with slashes it is read as its first segment, and the others as the beginning of the name. So the two
spellings agree for packages of one segment only. -/
theorem parse_slashes (hsegments : ∀ n ∈ first :: rest, IsUncut n) (hslash : '/' ∉ relative.toList)
    (hblank : ∀ c ∈ relative.toList, Text.isBlank c = false) :
    parse (spell "." (first :: rest) relative) =
      ⟨QualName.ofText (".".intercalate ((first :: rest).map (·.text))), ⟨relative⟩⟩ ∧
    parse (spell "/" (first :: rest) relative) =
      ⟨QualName.ofText first.text, ⟨"/".intercalate (rest.map (·.text) ++ [relative])⟩⟩ ∧
    (parse (spell "/" (first :: rest) relative) = parse (spell "." (first :: rest) relative) ↔
      rest = []) := by
  refine ⟨parse_spell_dots hsegments hblank, parse_spell_slashes hsegments hblank, ?_⟩
  rw [parse_spell_dots hsegments hblank, parse_spell_slashes hsegments hblank]
  cases rest with
  | nil => simp
  | cons second more =>
    refine iff_of_false (fun h => hslash ?_) (List.cons_ne_nil second more)
    -- The name behind the first slash has the second one in it.
    have hname : "/".intercalate ((second :: more).map (·.text) ++ [relative]) = relative :=
      congrArg (·.relative.text) h
    have hne : (second :: more).map (·.text) ≠ [] := List.cons_ne_nil _ _
    rw [String.intercalate_append_of_ne_nil hne (List.cons_ne_nil relative [])] at hname
    rw [← hname]
    simp

end

/-- A package of two segments. -/
def twoSegments : List Name :=
  [⟨"platform"⟩, ⟨"posix"⟩]

theorem isUncut_twoSegments : ∀ n ∈ twoSegments, IsUncut n := by
  decide +kernel

/-- With slashes, the second segment is read as a part of the name. -/
theorem parse_slashes_posix :
    (∀ n ∈ twoSegments, IsUncut n) ∧ '/' ∉ "timeval".toList ∧
      (∀ c ∈ "timeval".toList, Text.isBlank c = false) ∧
      parse (spell "." twoSegments "timeval") =
        ⟨QualName.ofText (".".intercalate ["platform", "posix"]), ⟨"timeval"⟩⟩ ∧
      parse (spell "/" twoSegments "timeval") =
        ⟨QualName.ofText "platform", ⟨"/".intercalate ["posix", "timeval"]⟩⟩ := by
  have hslash : '/' ∉ "timeval".toList := by decide
  have hblank : ∀ c ∈ "timeval".toList, Text.isBlank c = false :=
    all_not_isBlank_iff.1 (by decide)
  have hread := parse_slashes isUncut_twoSegments hslash hblank
  exact ⟨isUncut_twoSegments, hslash, hblank, hread.1, hread.2.1⟩

/-- The two spellings of a package can name two classes. -/
theorem parse_spell_differ :
    (∀ n ∈ twoSegments, IsUncut n) ∧ '/' ∉ "timeval".toList ∧
      (∀ c ∈ "timeval".toList, Text.isBlank c = false) ∧
      parse (spell "/" twoSegments "timeval") ≠ parse (spell "." twoSegments "timeval") := by
  refine ⟨isUncut_twoSegments, by decide, all_not_isBlank_iff.1 (by decide), ?_⟩
  decide +kernel

end ClassId

end SymbolAtlas
