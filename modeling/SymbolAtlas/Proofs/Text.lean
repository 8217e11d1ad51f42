import Mathlib.Data.List.Nodup
import Mathlib.Data.List.TakeWhile
import SymbolAtlas.Text.Blank

namespace SymbolAtlas.Text

variable {p : Char → Bool} {s : List Char}

/-! ## Trimming -/

theorem trimEnd_isPrefix (s : List Char) : trimEnd s <+: s := by
  have h := List.reverse_prefix.2 (List.dropWhile_suffix (l := s.reverse) isBlank)
  rwa [List.reverse_reverse] at h

theorem trim_isInfix (s : List Char) : trim s <:+: s :=
  (trimEnd_isPrefix (trimStart s)).isInfix.trans (List.dropWhile_suffix isBlank).isInfix

theorem mem_of_mem_trim {c : Char} (h : c ∈ trim s) : c ∈ s :=
  (trim_isInfix s).subset h

/-- Text that begins with no white space is trimmed at its end only. -/
theorem trim_isPrefix (h : ∀ c ∈ s.head?, isBlank c = false) : trim s <+: s := by
  have hstart : trimStart s = s := dropWhile_eq_self h
  rw [trim, hstart]
  exact trimEnd_isPrefix s

/-- Trimming drops nothing but white space at both ends. -/
theorem exists_trim_append (s : List Char) : ∃ front back, s = front ++ trim s ++ back ∧
    (∀ c ∈ front, isBlank c = true) ∧ ∀ c ∈ back, isBlank c = true := by
  refine ⟨s.takeWhile isBlank, ((trimStart s).reverse.takeWhile isBlank).reverse, ?_,
    fun c hc => List.mem_takeWhile_imp hc, fun c hc => List.mem_takeWhile_imp (List.mem_reverse.1 hc)⟩
  have hend : trim s ++ ((trimStart s).reverse.takeWhile isBlank).reverse = trimStart s := by
    rw [trim, trimEnd, ← List.reverse_append, List.takeWhile_append_dropWhile, List.reverse_reverse]
  rw [List.append_assoc, hend]
  exact List.takeWhile_append_dropWhile.symm

theorem dropWhile_append_cons {blank : List Char} {c : Char} (hblank : ∀ x ∈ blank, isBlank x = true)
    (hc : isBlank c = false) (rest : List Char) :
    (blank ++ c :: rest).dropWhile isBlank = c :: rest := by
  rw [List.dropWhile_append_of_pos hblank, List.dropWhile_cons_of_neg (by simp [hc])]

/-- White space in front of a character is dropped. -/
theorem head?_trim {blank : List Char} {c : Char} (hblank : ∀ x ∈ blank, isBlank x = true)
    (hc : isBlank c = false) (rest : List Char) : (trim (blank ++ c :: rest)).head? = some c := by
  have hstart : trimStart (blank ++ c :: rest) = c :: rest := dropWhile_append_cons hblank hc rest
  have hne : trimEnd (c :: rest) ≠ [] := by
    intro hnil
    have hall := List.dropWhile_eq_nil_iff.1 (List.reverse_eq_nil_iff.1 hnil) c (by simp)
    rw [hc] at hall
    cases hall
  obtain ⟨x, kept, hkept⟩ := List.exists_cons_of_ne_nil hne
  have hbegins := trimEnd_isPrefix (c :: rest)
  rw [hkept] at hbegins
  rw [trim, hstart, hkept, (List.cons_prefix_cons.1 hbegins).1, List.head?_cons]

/-- White space behind a character is dropped. -/
theorem getLast?_trim {blank : List Char} {c : Char} (hblank : ∀ x ∈ blank, isBlank x = true)
    (hc : isBlank c = false) (rest : List Char) : (trim (rest ++ c :: blank)).getLast? = some c := by
  obtain ⟨kept, hkept⟩ : ∃ kept, trimStart (rest ++ c :: blank) = kept ++ c :: blank := by
    unfold trimStart
    rw [List.dropWhile_append]
    split
    · exact ⟨[], List.dropWhile_cons_of_neg (by simp [hc])⟩
    · exact ⟨_, rfl⟩
  rw [trim, hkept, trimEnd, List.getLast?_reverse, List.reverse_append, List.reverse_cons,
    List.append_assoc, List.singleton_append,
    dropWhile_append_cons (fun x hx => hblank x (List.mem_reverse.1 hx)) hc, List.head?_cons]

theorem trimEnd_eq_self (h : ∀ c ∈ s.getLast?, isBlank c = false) : trimEnd s = s := by
  rw [trimEnd, dropWhile_eq_self, List.reverse_reverse]
  simpa [List.head?_reverse] using h

/-- White space at the end is dropped up to the last character that is none. -/
theorem trimEnd_append_cons (a : List Char) {c : Char} (hc : isBlank c = false) (b : List Char) :
    trimEnd (a ++ c :: b) = a ++ c :: trimEnd b := by
  simp only [trimEnd, List.reverse_append, List.reverse_cons, List.append_assoc, List.singleton_append]
  rw [List.dropWhile_append]
  split
  · rename_i hblank
    rw [List.isEmpty_iff] at hblank
    simp [hblank, hc]
  · simp

/-- A character that is not white space stays, with all that stands before it. -/
theorem trim_append_cons {a : List Char} (ha : ∀ x ∈ a.head?, isBlank x = false) {c : Char}
    (hc : isBlank c = false) (b : List Char) : trim (a ++ c :: b) = a ++ c :: trimEnd b := by
  have hstart : trimStart (a ++ c :: b) = a ++ c :: b := by
    refine dropWhile_eq_self fun x hx => ?_
    cases a with
    | nil => exact Option.some.inj hx ▸ hc
    | cons y rest => exact ha x hx
  rw [trim, hstart, trimEnd_append_cons a hc]

theorem isTrimmed_of_no_blank (h : ∀ c ∈ s, isBlank c = false) : IsTrimmed s :=
  ⟨fun c hc => h c (List.mem_of_mem_head? hc), fun c hc => h c (List.mem_of_getLast? hc)⟩

/-- Two texts with a character between them, where the first one is not empty. -/
theorem isTrimmed_join {a b : List Char} {c : Char} (ha : IsTrimmed a) (hne : a ≠ [])
    (hc : isBlank c = false) (hb : IsTrimmed b) : IsTrimmed (a ++ c :: b) := by
  constructor
  · obtain ⟨x, rest, rfl⟩ := List.exists_cons_of_ne_nil hne
    exact ha.1
  · intro x hx
    rw [List.getLast?_append, List.getLast?_cons] at hx
    cases hlast : b.getLast? with
    | none =>
      rw [hlast] at hx
      exact Option.some.inj hx ▸ hc
    | some y =>
      rw [hlast] at hx
      exact Option.some.inj hx ▸ hb.2 y hlast

/-! ## Splitting and joining -/

theorem mem_getLast?_append_cons {a b : List Char} {c x : Char} (h : x ∈ b.getLast?) :
    x ∈ (a ++ c :: b).getLast? := by
  rw [Option.mem_def] at h
  rw [List.getLast?_append, List.getLast?_cons, h]
  rfl

/-- What stands in joined pieces. -/
theorem mem_intercalate {sep : String} {pieces : List String} {c : Char}
    (h : c ∈ (sep.intercalate pieces).toList) : c ∈ sep.toList ∨ ∃ w ∈ pieces, c ∈ w.toList := by
  induction pieces with
  | nil => simp at h
  | cons w rest ih =>
    cases rest with
    | nil => exact .inr ⟨w, List.mem_cons_self, by simpa using h⟩
    | cons v more =>
      rw [String.intercalate_cons_cons, String.toList_append, String.toList_append] at h
      rcases List.mem_append.1 h with h | h
      · exact (List.mem_append.1 h).symm.imp_right fun hc => ⟨w, List.mem_cons_self, hc⟩
      · exact (ih h).imp_right fun ⟨u, hu, hc⟩ => ⟨u, List.mem_cons_of_mem w hu, hc⟩


theorem splitLast_none (h : ∀ x ∈ s, p x = false) : splitLast p s = none := by
  cases hsplit : splitLast p s with
  | none => rfl
  | some parts =>
    obtain ⟨c, hc, rfl, -⟩ := splitLast_eq_some hsplit
    rw [h c (by simp)] at hc
    cases hc

/-- The last separator splits the text. -/
theorem splitLast_append (a : List Char) {c : Char} {b : List Char} (hc : p c = true)
    (hb : ∀ x ∈ b, p x = false) : splitLast p (a ++ c :: b) = some (a, b) := by
  induction a with
  | nil => rw [List.nil_append, splitLast, splitLast_none hb, if_pos hc]
  | cons x rest ih => rw [List.cons_append, splitLast, ih]

theorem splitFirst_eq_none : splitFirst p s = none ↔ ∀ x ∈ s, p x = false := by
  induction s with
  | nil => simp [splitFirst]
  | cons x rest ih =>
    rw [splitFirst, List.forall_mem_cons]
    by_cases hx : p x = true
    · simp [hx]
    · rw [if_neg hx, Option.map_eq_none_iff, ih]
      simp [hx]

/-- The first separator splits the text. -/
theorem splitFirst_append {a : List Char} (ha : ∀ x ∈ a, p x = false) {c : Char} (hc : p c = true)
    (b : List Char) : splitFirst p (a ++ c :: b) = some (a, b) := by
  induction a with
  | nil => rw [List.nil_append, splitFirst, if_pos hc]
  | cons x rest ih =>
    obtain ⟨hx, hrest⟩ := List.forall_mem_cons.1 ha
    rw [List.cons_append, splitFirst, if_neg (by simp [hx]), ih hrest, Option.map_some]

/-- The pieces of a text hold no separators. -/
theorem no_separator_of_mem_splitOnP {w : List Char} (hw : w ∈ s.splitOnP p) : ∀ c ∈ w, p c = false := by
  induction s generalizing w with
  | nil =>
    obtain rfl := List.mem_singleton.1 hw
    exact nofun
  | cons x rest ih =>
    rw [List.splitOnP_cons_eq_if_modifyHead] at hw
    split at hw
    · rcases List.mem_cons.1 hw with rfl | hw
      · exact nofun
      · exact ih hw
    · rename_i hx
      obtain ⟨first, others, hsplit⟩ := List.exists_cons_of_ne_nil (List.splitOnP_ne_nil p rest)
      rw [hsplit] at hw ih
      rcases List.mem_cons.1 hw with rfl | hw
      · intro c hc
        rcases List.mem_cons.1 hc with rfl | hc
        · simpa using hx
        · exact ih List.mem_cons_self c hc
      · exact ih (List.mem_cons_of_mem _ hw)

/-- A text is without the separator, or goes on after the first one. -/
theorem splitOn_induction (sep : Char) {P : List Char → Prop} (whole : ∀ s, sep ∉ s → P s)
    (cut : ∀ a b, sep ∉ a → P b → P (a ++ sep :: b)) (s : List Char) : P s := by
  by_cases h : sep ∈ s
  · obtain ⟨a, b, hs, ha⟩ := List.eq_append_cons_of_mem h
    have hlength : b.length < s.length := by
      rw [hs, List.length_append, List.length_cons]
      omega
    exact hs ▸ cut a b ha (splitOn_induction sep whole cut b)
  · exact whole s h
termination_by s.length

theorem splitOn_append_cons {sep : Char} {a : List Char} (ha : sep ∉ a) (b : List Char) :
    (a ++ sep :: b).splitOn sep = a :: b.splitOn sep := by
  rw [List.splitOn_append_cons_self, List.splitOn_eq_singleton ha, List.singleton_append]

/-- The pieces of a text are found in it. -/
theorem isInfix_of_mem_splitOn {sep : Char} {w : List Char} (h : w ∈ s.splitOn sep) : w <:+: s := by
  induction s using splitOn_induction sep with
  | whole s hs =>
    rw [List.splitOn_eq_singleton hs, List.mem_singleton] at h
    exact h ▸ List.infix_refl w
  | cut a b ha ih =>
    rw [splitOn_append_cons ha] at h
    rcases List.mem_cons.1 h with rfl | h
    · exact (List.prefix_append w _).isInfix
    · exact (ih h).trans ((List.suffix_cons sep b).trans (List.suffix_append a _)).isInfix

/-- Every other character of a text stands in one of its pieces. -/
theorem exists_mem_splitOn {sep c : Char} (hc : c ≠ sep) (h : c ∈ s) :
    ∃ w ∈ s.splitOn sep, c ∈ w := by
  induction s using splitOn_induction sep with
  | whole s hs => exact ⟨s, by rw [List.splitOn_eq_singleton hs]; exact List.mem_cons_self, h⟩
  | cut a b ha ih =>
    rw [splitOn_append_cons ha]
    rcases List.mem_append.1 h with h | h
    · exact ⟨a, List.mem_cons_self, h⟩
    · obtain ⟨w, hw, hmem⟩ := ih ((List.mem_cons.1 h).resolve_left hc)
      exact ⟨w, List.mem_cons_of_mem a hw, hmem⟩

/-- A piece that ends in a separator, in front of a text with one piece more. -/
theorem prefix_append_cons_iff {sep : Char} {a b w : List Char} (hw : sep ∉ w) :
    b ++ [sep] <+: a ++ sep :: w ↔ b = a ∨ b ++ [sep] <+: a := by
  have hnot {s : List Char} : ¬ s ++ [sep] <+: w := fun h => hw (h.subset (by simp))
  induction a generalizing b with
  | nil => cases b <;> simp [List.cons_prefix_cons, hnot]
  | cons x rest ih =>
    cases b with
    | nil => simp [List.cons_prefix_cons]
    | cons y front =>
      simp only [List.cons_append, List.cons_prefix_cons, ih, List.cons.injEq, and_or_left]

/-- There is an empty piece before a separator at the beginning, behind one at the end, and between
two of them. -/
theorem nil_mem_splitOn_iff {sep : Char} : [] ∈ s.splitOn sep ↔
    s = [] ∨ s.head? = some sep ∨ s.getLast? = some sep ∨ [sep, sep] <:+: s := by
  constructor
  · intro h
    induction s using splitOn_induction sep with
    | whole s hs =>
      rw [List.splitOn_eq_singleton hs, List.mem_singleton] at h
      exact .inl h.symm
    | cut a b ha ih =>
      rw [splitOn_append_cons ha] at h
      rcases List.mem_cons.1 h with rfl | h
      · exact .inr (.inl rfl)
      · have hsuffix : sep :: b <:+ a ++ sep :: b := List.suffix_append a _
        rcases ih h with rfl | hhead | hlast | hpair
        · exact .inr (.inr (.inl List.getLast?_concat))
        · obtain ⟨rest, rfl⟩ := List.head?_eq_some_iff.1 hhead
          exact .inr (.inr (.inr ((List.prefix_append [sep, sep] rest).isInfix.trans hsuffix.isInfix)))
        · refine .inr (.inr (.inl ?_))
          rw [List.getLast?_append, List.getLast?_cons, hlast]
          rfl
        · exact .inr (.inr (.inr (hpair.trans ((List.suffix_cons sep b).trans hsuffix).isInfix)))
  · have hfirst (rest : List Char) : (sep :: rest).splitOn sep = [] :: rest.splitOn sep :=
      splitOn_append_cons List.not_mem_nil rest
    rintro (rfl | hhead | hlast | ⟨a, b, rfl⟩)
    · simp
    · obtain ⟨rest, rfl⟩ := List.head?_eq_some_iff.1 hhead
      rw [hfirst]
      exact List.mem_cons_self
    · obtain ⟨front, rfl⟩ := List.getLast?_eq_some_iff.1 hlast
      simp [List.splitOn_append_cons_self]
    · simp [List.splitOn_append_cons_self, hfirst]

theorem no_blank_of_mem_words {w : List Char} (hw : w ∈ words s) : ∀ c ∈ w, isBlank c = false :=
  no_separator_of_mem_splitOnP (List.mem_filter.1 hw).1

/-! ## Lines -/

theorem dropReturn_isPrefix (line : List Char) : dropReturn line <+: line := by
  unfold dropReturn
  split
  · exact List.dropLast_prefix line
  · exact List.prefix_refl line

theorem newline_not_mem_linesFrom {line : List Char} (hline : '\n' ∉ line) :
    ∀ l ∈ linesFrom line s, '\n' ∉ l := by
  induction s generalizing line with
  | nil =>
    unfold linesFrom
    split
    · simp
    · simpa using hline
  | cons c rest ih =>
    unfold linesFrom
    split
    · intro l hl
      rcases List.mem_cons.1 hl with rfl | hl
      · exact fun h => hline ((dropReturn_isPrefix line).subset h)
      · exact ih List.not_mem_nil l hl
    · rename_i hc
      exact ih (by simpa [hline] using Ne.symm hc)

theorem newline_not_mem_lines (s : List Char) : ∀ l ∈ lines s, '\n' ∉ l :=
  newline_not_mem_linesFrom List.not_mem_nil

theorem linesFrom_append {l : List Char} (hl : '\n' ∉ l) (line rest : List Char) :
    linesFrom line (l ++ '\n' :: rest) = dropReturn (line ++ l) :: linesFrom [] rest := by
  induction l generalizing line with
  | nil => simp [linesFrom]
  | cons c r ih =>
    rw [List.mem_cons, not_or] at hl
    have hc : c ≠ '\n' := Ne.symm hl.1
    rw [List.cons_append, linesFrom, if_neg hc, ih hl.2, List.append_assoc, List.singleton_append]

/-- Lines are cut apart again, but for a carriage return at the end of one. -/
theorem lines_flatMap {ls : List (List Char)} (h : ∀ l ∈ ls, '\n' ∉ l ∧ l.getLast? ≠ some '\r') :
    lines (ls.flatMap (· ++ ['\n'])) = ls := by
  induction ls with
  | nil => rfl
  | cons l rest ih =>
    obtain ⟨⟨hl, hreturn⟩, hrest⟩ := List.forall_mem_cons.1 h
    have hkeep : dropReturn l = l := if_neg hreturn
    rw [List.flatMap_cons, List.append_assoc, List.singleton_append, lines, linesFrom_append hl,
      List.nil_append, hkeep]
    exact congrArg (l :: ·) (ih hrest)

/-- A line is open where a text begins, or the text ends it. -/
theorem linesFrom_append_of_newline {front line : List Char} (h : ∀ c ∈ front.getLast?, c = '\n')
    (hline : front = [] → line = []) (back : List Char) :
    linesFrom line (front ++ back) = linesFrom line front ++ lines back := by
  induction front generalizing line with
  | nil =>
    rw [hline rfl]
    rfl
  | cons c rest ih =>
    have hrest : ∀ d ∈ rest.getLast?, d = '\n' := by
      cases rest with
      | nil => simp
      | cons d rest => simpa [List.getLast?_cons_cons] using h
    rw [List.cons_append, linesFrom, linesFrom]
    split
    · rw [ih hrest fun _ => rfl, List.cons_append]
    · rename_i hc
      refine ih hrest fun hnil => ?_
      rw [hnil] at h
      exact absurd (h c rfl) hc

theorem lines_append {front : List Char} (h : front = [] ∨ front.getLast? = some '\n')
    (back : List Char) : lines (front ++ back) = lines front ++ lines back := by
  refine linesFrom_append_of_newline (fun c hc => ?_) (fun _ => rfl) back
  rcases h with rfl | h
  · cases hc
  · exact Option.some.inj (hc.symm.trans h)

/-! ## Sorting -/

theorem pairwise_mergeSort {texts : List String} (h : texts.Nodup) :
    (texts.mergeSort fun a b => decide (a ≤ b)).Pairwise (· < ·) := by
  have htrans (a b c : String) (hab : decide (a ≤ b) = true) (hbc : decide (b ≤ c) = true) :
      decide (a ≤ c) = true :=
    decide_eq_true (String.le_trans (of_decide_eq_true hab) (of_decide_eq_true hbc))
  have htotal (a b : String) : (decide (a ≤ b) || decide (b ≤ a)) = true := by
    simpa using String.le_total a b
  have hsorted := List.pairwise_mergeSort htrans htotal texts
  refine hsorted.imp₂ (fun a b hle hne => ?_) ((List.mergeSort_perm _ _).nodup_iff.2 h)
  by_contra hlt
  exact hne (String.le_antisymm (of_decide_eq_true hle) (String.not_lt.1 hlt))

end SymbolAtlas.Text
