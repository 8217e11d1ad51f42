import SymbolAtlas.Proofs.Manifest

namespace SymbolAtlas.Manifest

open Text

/-- Trimming in front leaves the end of a line as it is. -/
theorem getLast?_of_trimStart {raw : List Char} {c : Char} (h : (trimStart raw).getLast? = some c) :
    raw.getLast? = some c := by
  obtain ⟨front, hfront⟩ : trimStart raw <:+ raw := List.dropWhile_suffix isBlank
  rw [← hfront, List.getLast?_append, h, Option.some_or]

/-- Nothing is pending after a line that does not go on, whatever went before. -/
theorem joinLines_append {raws : List (List Char)}
    (hlast : ∀ raw ∈ raws.getLast?, raw.getLast? ≠ some '\\') {pending : List Char}
    (hpending : raws = [] → pending = []) (more : List (List Char)) :
    joinLines pending (raws ++ more) = joinLines pending raws ++ joinLines [] more := by
  induction raws generalizing pending with
  | nil =>
    rw [hpending rfl]
    rfl
  | cons raw rest ih =>
    have hrest : ∀ raw ∈ rest.getLast?, raw.getLast? ≠ some '\\' := by
      cases rest with
      | nil => simp
      | cons next rest => simpa [List.getLast?_cons_cons] using hlast
    rw [List.cons_append, joinLines_cons, joinLines_cons]
    split
    · exact ih hrest fun _ => rfl
    · split
      · rename_i hgoes
        refine ih hrest fun hnil => ?_
        rw [hnil] at hlast
        exact absurd (getLast?_of_trimStart hgoes) (hlast raw rfl)
      · rw [ih hrest fun _ => rfl, List.cons_append]

theorem statedProperties_append {front : String}
    (hend : front = "" ∨ front.toList.getLast? = some '\n')
    (hlast : ∀ line ∈ (lines front.toList).getLast?, line.getLast? ≠ some '\\') (back : String) :
    statedProperties (front ++ back) = statedProperties front ++ statedProperties back := by
  have hends : front.toList = [] ∨ front.toList.getLast? = some '\n' :=
    hend.imp_left String.toList_eq_nil_iff.2
  have hjoined : joinLines [] (lines (front ++ back).toList) =
      joinLines [] (lines front.toList) ++ joinLines [] (lines back.toList) := by
    rw [String.toList_append, lines_append hends, joinLines_append hlast fun _ => rfl]
  rw [statedProperties, hjoined, List.map_append, List.filter_append]
  rfl

/-- **Manifests one after the other are merged.** When a text is empty or ends in a newline, and its
last line does not go on, the properties of the text and another one after it are those of the text,
overridden by those of the other one. -/
theorem parse_append {front : String} (hend : front = "" ∨ front.toList.getLast? = some '\n')
    (hlast : ∀ line ∈ (lines front.toList).getLast?, line.getLast? ≠ some '\\') (back : String) :
    (parse (front ++ back)).properties =
      (parse front).properties.overriddenBy (parse back).properties := by
  simp only [parse]
  rw [statedProperties_append hend hlast, Properties.ofList_append]

/-- A comment, a line that goes on over a carriage return, a key without a value, and a key that is
stated three times. -/
theorem parse_append_sdl :
    let front := "# sdl\r\ndepends=posix \\\r\n  zlib\n\ninterop\nunique_name=sdl\nunique_name=sdl2\r\n"
    let back := "unique_name: sdl3\nroot=/sdk\\"
    (front.toList.getLast? = some '\n' ∧
      ∀ line ∈ (lines front.toList).getLast?, line.getLast? ≠ some '\\') ∧
    (parse (front ++ back)).properties =
      (parse front).properties.overriddenBy (parse back).properties ∧
    (parse (front ++ back)).properties.entries =
      [("depends", "posix zlib"), ("interop", ""), ("root", "/sdk"), ("unique_name", "sdl3")] := by
  intro front back
  have hend : front.toList.getLast? = some '\n' := by decide
  have hlast : ∀ line ∈ (lines front.toList).getLast?, line.getLast? ≠ some '\\' := by
    decide +kernel
  exact ⟨⟨hend, hlast⟩, parse_append (.inr hend) hlast back, by decide +kernel⟩

end SymbolAtlas.Manifest
