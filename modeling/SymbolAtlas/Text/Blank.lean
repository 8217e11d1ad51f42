/-!
# White space

Text is handled as a list of characters. This module holds the class of white space, trimming, and
the two ways text is cut into pieces by it: words and lines.

* `trim_trim`: trimming twice is trimming once;
* `trim_eq_self_iff`: the texts that trimming leaves alone begin and end with no white space.
-/

namespace SymbolAtlas.Text

/-- White space: the characters with the Unicode property `White_Space`. -/
def isBlank (c : Char) : Bool :=
  let n := c.toNat
  (9 ≤ n && n ≤ 13) || n == 0x20 || n == 0x85 || n == 0xA0 || n == 0x1680 ||
    (0x2000 ≤ n && n ≤ 0x200A) || n == 0x2028 || n == 0x2029 || n == 0x202F || n == 0x205F ||
    n == 0x3000

def trimStart (s : List Char) : List Char :=
  s.dropWhile isBlank

def trimEnd (s : List Char) : List Char :=
  (s.reverse.dropWhile isBlank).reverse

def trim (s : List Char) : List Char :=
  trimEnd (trimStart s)

/-- Neither the first nor the last character is white space. -/
def IsTrimmed (s : List Char) : Prop :=
  (∀ c ∈ s.head?, isBlank c = false) ∧ ∀ c ∈ s.getLast?, isBlank c = false

theorem dropWhile_eq_self {p : Char → Bool} {s : List Char} (h : ∀ c ∈ s.head?, p c = false) :
    s.dropWhile p = s := by
  cases s with
  | nil => rfl
  | cons a r => simp [h a (by simp)]

@[simp] theorem trim_nil : trim [] = [] := rfl

theorem head?_trimStart (s : List Char) : ∀ c ∈ (trimStart s).head?, isBlank c = false := by
  intro c hc
  have hnot := List.head?_dropWhile_not isBlank s
  rwa [← trimStart, Option.mem_def.1 hc] at hnot

theorem head?_trimEnd {s : List Char} (h : ∀ c ∈ s.head?, isBlank c = false) :
    ∀ c ∈ (trimEnd s).head?, isBlank c = false := by
  cases s with
  | nil => simp [trimEnd]
  | cons a r =>
    have ha : isBlank a = false := h a (by simp)
    have : trimEnd (a :: r) = a :: trimEnd r := by
      simp only [trimEnd, List.reverse_cons]
      rw [List.dropWhile_append]
      split
      · rename_i hr
        simp only [List.isEmpty_iff] at hr
        simp [ha, hr]
      · simp
    rw [this]
    simpa using ha

theorem isTrimmed_trim (s : List Char) : IsTrimmed (trim s) := by
  refine ⟨head?_trimEnd (head?_trimStart s), ?_⟩
  simp only [trim, trimEnd, List.getLast?_reverse]
  exact head?_trimStart _

theorem trim_eq_self_iff {s : List Char} : trim s = s ↔ IsTrimmed s := by
  constructor
  · intro h
    exact h ▸ isTrimmed_trim s
  · rintro ⟨hhead, hlast⟩
    have hstart : trimStart s = s := dropWhile_eq_self hhead
    rw [trim, hstart, trimEnd, dropWhile_eq_self, List.reverse_reverse]
    simpa [List.head?_reverse] using hlast

@[simp] theorem trim_trim (s : List Char) : trim (trim s) = trim s :=
  trim_eq_self_iff.2 (isTrimmed_trim s)

/-- The maximal runs of characters that are not white space. -/
def words (s : List Char) : List (List Char) :=
  (s.splitOnP isBlank).filter (!·.isEmpty)

/-- Drops one carriage return at the end. -/
def dropReturn (line : List Char) : List Char :=
  if line.getLast? = some '\r' then line.dropLast else line

/-- The lines of `s` after the characters `line`, which are already read. A line ends at a newline,
a carriage return before it belongs to the line ending, and a last line may lack its ending. -/
def linesFrom (line : List Char) : List Char → List (List Char)
  | [] => if line.isEmpty then [] else [line]
  | c :: rest =>
    if c = '\n' then dropReturn line :: linesFrom [] rest else linesFrom (line ++ [c]) rest

def lines (s : List Char) : List (List Char) :=
  linesFrom [] s

/-- The text before and after the first character in the class `p`. -/
def splitFirst (p : Char → Bool) : List Char → Option (List Char × List Char)
  | [] => none
  | c :: rest =>
    if p c then some ([], rest) else (splitFirst p rest).map fun (a, b) => (c :: a, b)

/-- The text before and after the last character in the class `p`. -/
def splitLast (p : Char → Bool) : List Char → Option (List Char × List Char)
  | [] => none
  | c :: rest =>
    match splitLast p rest with
    | some (a, b) => some (c :: a, b)
    | none => if p c then some ([], rest) else none

/-- `splitFirst` finds the first separator: the text is rebuilt and the front holds none. -/
theorem splitFirst_eq_some {p : Char → Bool} {s a b : List Char} (h : splitFirst p s = some (a, b)) :
    ∃ c, p c = true ∧ s = a ++ c :: b ∧ ∀ x ∈ a, p x = false := by
  induction s generalizing a with
  | nil => simp [splitFirst] at h
  | cons x r ih =>
    unfold splitFirst at h
    by_cases hx : p x = true
    · simp only [hx, if_true, Option.some.injEq, Prod.mk.injEq] at h
      obtain ⟨rfl, rfl⟩ := h
      exact ⟨x, hx, rfl, by simp⟩
    · simp only [hx, Bool.false_eq_true, if_false, Option.map_eq_some_iff, Prod.mk.injEq,
        Prod.exists] at h
      obtain ⟨a', b', h', rfl, rfl⟩ := h
      obtain ⟨c, hc, rfl, ha⟩ := ih h'
      exact ⟨c, hc, rfl, by simpa [hx] using ha⟩

theorem splitLast_eq_none {p : Char → Bool} {s : List Char} (h : splitLast p s = none) :
    ∀ x ∈ s, p x = false := by
  induction s with
  | nil => simp
  | cons x r ih =>
    unfold splitLast at h
    split at h
    · simp at h
    · rename_i h'
      split at h
      · simp at h
      · rename_i hx
        simpa [hx] using ih h'

/-- `splitLast` finds the last separator: the text is rebuilt and the back holds none. -/
theorem splitLast_eq_some {p : Char → Bool} {s a b : List Char} (h : splitLast p s = some (a, b)) :
    ∃ c, p c = true ∧ s = a ++ c :: b ∧ ∀ x ∈ b, p x = false := by
  induction s generalizing a with
  | nil => simp [splitLast] at h
  | cons x r ih =>
    unfold splitLast at h
    split at h
    · rename_i a' b' h'
      simp only [Option.some.injEq, Prod.mk.injEq] at h
      obtain ⟨rfl, rfl⟩ := h
      obtain ⟨c, hc, rfl, hb⟩ := ih h'
      exact ⟨c, hc, rfl, hb⟩
    · rename_i h'
      split at h
      · rename_i hx
        simp only [Option.some.injEq, Prod.mk.injEq] at h
        obtain ⟨rfl, rfl⟩ := h
        exact ⟨x, hx, rfl, splitLast_eq_none h'⟩
      · simp at h

end SymbolAtlas.Text
