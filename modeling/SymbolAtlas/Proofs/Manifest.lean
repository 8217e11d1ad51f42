import SymbolAtlas.Manifest
import SymbolAtlas.Proofs.Properties
import SymbolAtlas.Proofs.Text

/-!
# Manifests written and read

Writing a manifest escapes nothing, so a manifest reads back only if none of its lines means
something else: a comment, another key, or a line that goes on. What is read from a text is *plain*
in all of this but one thing: a value can end in a backslash, and then its line goes on in the next
one.

* `plain_parse`: the properties that are read are plain;
* `Plain.parse_render_iff`: among plain manifests, those without a backslash at the end of a value
  read back, and no others;
* `parse_render`: which manifests read back;
* `parse_render_parse`: which manifests that were read before read back.
-/

namespace SymbolAtlas.Manifest

open Text

structure PlainKey (key : String) : Prop where
  nonempty : key ≠ ""
  trimmed : trim key.toList = key.toList
  unsplit : '=' ∉ key.toList ∧ ':' ∉ key.toList
  oneLine : '\n' ∉ key.toList
  uncommented : key.toList.head? ≠ some '#' ∧ key.toList.head? ≠ some '!'

structure PlainValue (value : String) : Prop where
  trimmed : trim value.toList = value.toList
  oneLine : '\n' ∉ value.toList

def Plain (m : Manifest) : Prop :=
  ∀ e ∈ m.properties.entries, PlainKey e.1 ∧ PlainValue e.2

instance (key : String) : Decidable (PlainKey key) :=
  decidable_of_iff (key ≠ "" ∧ trim key.toList = key.toList ∧ ('=' ∉ key.toList ∧ ':' ∉ key.toList) ∧
      '\n' ∉ key.toList ∧ key.toList.head? ≠ some '#' ∧ key.toList.head? ≠ some '!')
    ⟨fun ⟨hnonempty, htrimmed, hunsplit, honeLine, huncommented⟩ =>
        ⟨hnonempty, htrimmed, hunsplit, honeLine, huncommented⟩,
      fun h => ⟨h.nonempty, h.trimmed, h.unsplit, h.oneLine, h.uncommented⟩⟩

instance (value : String) : Decidable (PlainValue value) :=
  decidable_of_iff (trim value.toList = value.toList ∧ '\n' ∉ value.toList)
    ⟨fun ⟨htrimmed, honeLine⟩ => ⟨htrimmed, honeLine⟩, fun h => ⟨h.trimmed, h.oneLine⟩⟩

theorem joinLines_cons (pending raw : List Char) (raws : List (List Char)) :
    joinLines pending (raw :: raws) =
      if pending.isEmpty && isIgnored (trimStart raw) then joinLines [] raws
      else if (trimStart raw).getLast? = some '\\' then
        joinLines (pending ++ (trimStart raw).dropLast) raws
      else (pending ++ trimStart raw) :: joinLines [] raws :=
  rfl

/-! ## What is read is plain -/

/-- Joined text, complete or pending: on one line, with neither white space nor the mark of a comment
in front. -/
structure IsJoined (line : List Char) : Prop where
  oneLine : '\n' ∉ line
  starts : ∀ c ∈ line.head?, isBlank c = false ∧ c ≠ '#' ∧ c ≠ '!'

theorem isJoined_nil : IsJoined [] :=
  ⟨List.not_mem_nil, nofun⟩

/-- A line is joined to what is pending. While nothing is pending the line is not an ignored one. -/
theorem IsJoined.append {pending line : List Char} (hpending : IsJoined pending)
    (hline : '\n' ∉ line) (hstart : pending = [] → IsJoined line) : IsJoined (pending ++ line) := by
  cases pending with
  | nil => exact hstart rfl
  | cons c rest =>
    refine ⟨?_, hpending.starts⟩
    rw [List.mem_append, not_or]
    exact ⟨hpending.oneLine, hline⟩

theorem IsJoined.of_isPrefix {line front : List Char} (h : IsJoined line) (hfront : front <+: line) :
    IsJoined front := by
  refine ⟨fun hmem => h.oneLine (hfront.subset hmem), fun c hc => h.starts c ?_⟩
  obtain ⟨rest, rfl⟩ := hfront
  cases front with
  | nil => cases hc
  | cons d front => exact hc

theorem isJoined_trimStart {raw : List Char} (hraw : '\n' ∉ raw)
    (hkept : isIgnored (trimStart raw) = false) : IsJoined (trimStart raw) := by
  refine ⟨fun hmem => hraw ((List.dropWhile_suffix isBlank).subset hmem), fun c hc => ?_⟩
  refine ⟨head?_trimStart raw c hc, ?_⟩
  cases hline : trimStart raw with
  | nil => simp [hline] at hc
  | cons d rest =>
    rw [hline] at hc hkept
    obtain rfl := Option.some.inj hc
    simpa [isIgnored] using hkept

theorem isJoined_joinLines {pending : List Char} {raws : List (List Char)}
    (hpending : IsJoined pending) (hraws : ∀ raw ∈ raws, '\n' ∉ raw) :
    ∀ line ∈ joinLines pending raws, IsJoined line := by
  induction raws generalizing pending with
  | nil =>
    unfold joinLines
    split
    · simp
    · simpa using hpending
  | cons raw rest ih =>
    obtain ⟨hraw, hrest⟩ := List.forall_mem_cons.1 hraws
    have hline : '\n' ∉ trimStart raw := fun h => hraw ((List.dropWhile_suffix isBlank).subset h)
    rw [joinLines_cons]
    split
    · exact ih isJoined_nil hrest
    · rename_i hkept
      have hstart (hnil : pending = []) : IsJoined (trimStart raw) :=
        isJoined_trimStart hraw (by simpa [hnil] using hkept)
      split
      · have hlast := List.dropLast_prefix (trimStart raw)
        exact ih (hpending.append (fun h => hline (hlast.subset h))
          fun hnil => (hstart hnil).of_isPrefix hlast) hrest
      · intro line hmem
        rcases List.mem_cons.1 hmem with rfl | hmem
        · exact hpending.append hline hstart
        · exact ih isJoined_nil hrest line hmem

/-- What stands before the separator is a plain key, if it is a key at all. -/
theorem plainKey_trim {front : List Char} (h : IsJoined front)
    (hfront : ∀ c ∈ front, (c == '=' || c == ':') = false)
    (hkey : String.ofList (trim front) ≠ "") : PlainKey (String.ofList (trim front)) := by
  have hcut : trim front <+: front := trim_isPrefix fun c hc => (h.starts c hc).1
  have hjoined := h.of_isPrefix hcut
  have hunsplit {c : Char} (hc : (c == '=' || c == ':') = true) : c ∉ trim front := by
    intro hmem
    rw [hfront c (hcut.subset hmem)] at hc
    cases hc
  have hstart {c : Char} (hc : c = '#' ∨ c = '!') : (trim front).head? ≠ some c := by
    intro hhead
    obtain ⟨-, hhash, hbang⟩ := hjoined.starts c hhead
    exact hc.elim hhash hbang
  constructor
  case nonempty => exact hkey
  case trimmed => simp
  all_goals rw [String.toList_ofList]
  case unsplit => exact ⟨hunsplit rfl, hunsplit rfl⟩
  case oneLine => exact hjoined.oneLine
  case uncommented => exact ⟨hstart (.inl rfl), hstart (.inr rfl)⟩

theorem plainValue_trim {back : List Char} (h : '\n' ∉ back) :
    PlainValue (String.ofList (trim back)) := by
  refine ⟨by simp, ?_⟩
  rw [String.toList_ofList]
  exact fun hmem => h (mem_of_mem_trim hmem)

theorem plain_splitProperty {line : List Char} (h : IsJoined line)
    (hkey : (splitProperty line).1 ≠ "") :
    PlainKey (splitProperty line).1 ∧ PlainValue (splitProperty line).2 := by
  unfold splitProperty at hkey ⊢
  split at hkey
  · rename_i front back hsplit
    obtain ⟨c, -, rfl, hfront⟩ := splitFirst_eq_some hsplit
    have hback : '\n' ∉ back := fun hmem => h.oneLine (by simp [hmem])
    exact ⟨plainKey_trim (h.of_isPrefix (List.prefix_append front _)) hfront hkey,
      plainValue_trim hback⟩
  · rename_i hsplit
    exact ⟨plainKey_trim h (splitFirst_eq_none.1 hsplit) hkey, ⟨by simp, by simp⟩⟩

theorem plain_statedProperties (text : String) :
    ∀ e ∈ statedProperties text, PlainKey e.1 ∧ PlainValue e.2 := by
  intro e he
  obtain ⟨hmem, hkey⟩ := List.mem_filter.1 he
  obtain ⟨line, hline, rfl⟩ := List.mem_map.1 hmem
  have hjoined := isJoined_joinLines isJoined_nil (newline_not_mem_lines text.toList) line hline
  exact plain_splitProperty hjoined (by simpa using hkey)

theorem plain_parse (text : String) : (parse text).Plain :=
  fun e he => plain_statedProperties text e (Properties.mem_ofList he)

/-! ## Reading what was written -/

def writtenLine (e : String × String) : List Char :=
  e.1.toList ++ '=' :: e.2.toList

theorem toList_render (m : Manifest) :
    m.render.toList = (m.properties.entries.map writtenLine).flatMap (· ++ ['\n']) := by
  simp [render, String.toList_join, List.flatMap_map, writtenLine]

section
variable {e : String × String} {entries : List (String × String)}

theorem PlainKey.exists_cons {key : String} (h : PlainKey key) : ∃ c rest, key.toList = c :: rest ∧
    isBlank c = false ∧ c ≠ '#' ∧ c ≠ '!' := by
  obtain ⟨c, rest, hkey⟩ := List.exists_cons_of_ne_nil (mt String.toList_eq_nil_iff.1 h.nonempty)
  have hblank := (trim_eq_self_iff.1 h.trimmed).1
  have hmarks := h.uncommented
  rw [hkey] at hblank hmarks
  exact ⟨c, rest, hkey, hblank c rfl, by simpa using hmarks⟩

/-- The line of a property with a plain key is neither trimmed in front nor left out. -/
theorem PlainKey.kept {key : String} (h : PlainKey key) (back : List Char) :
    trimStart (key.toList ++ back) = key.toList ++ back ∧
      isIgnored (key.toList ++ back) = false := by
  obtain ⟨c, rest, hkey, hblank, hmarks⟩ := h.exists_cons
  rw [hkey]
  exact ⟨dropWhile_eq_self (by simpa using hblank), by simpa [isIgnored] using hmarks⟩

theorem splitProperty_append {key : String} (h : PlainKey key) (back : List Char) :
    splitProperty (key.toList ++ '=' :: back) = (key, String.ofList (trim back)) := by
  have hkey : ∀ c ∈ key.toList, (c == '=' || c == ':') = false := by
    intro c hc
    rw [Bool.or_eq_false_iff, beq_eq_false_iff_ne, beq_eq_false_iff_ne]
    exact ⟨fun heq => h.unsplit.1 (heq ▸ hc), fun heq => h.unsplit.2 (heq ▸ hc)⟩
  rw [splitProperty, splitFirst_append hkey (by decide)]
  simp [h.trimmed]

theorem splitProperty_writtenLine (hkey : PlainKey e.1) (hvalue : PlainValue e.2) :
    splitProperty (writtenLine e) = e := by
  rw [writtenLine, splitProperty_append hkey, hvalue.trimmed, String.ofList_toList]

theorem getLast?_writtenLine (e : String × String) :
    (writtenLine e).getLast? = some (e.2.toList.getLast?.getD '=') := by
  rw [writtenLine, List.getLast?_append, List.getLast?_cons]
  rfl

theorem Plain.lines_render {m : Manifest} (h : m.Plain) :
    lines m.render.toList = m.properties.entries.map writtenLine := by
  rw [toList_render]
  apply lines_flatMap
  intro l hl
  obtain ⟨e, he, rfl⟩ := List.mem_map.1 hl
  obtain ⟨hkey, hvalue⟩ := h e he
  constructor
  · simp [writtenLine, hkey.oneLine, hvalue.oneLine]
  · rw [getLast?_writtenLine]
    cases hlast : e.2.toList.getLast? with
    | none => decide
    | some c =>
      have hblank := (trim_eq_self_iff.1 hvalue.trimmed).2 c hlast
      intro heq
      obtain rfl : c = '\r' := Option.some.inj heq
      exact absurd hblank (by decide)

/-- A written line goes on exactly when its value ends in the mark for that. -/
theorem joinLines_written (hkey : PlainKey e.1) (raws : List (List Char)) :
    joinLines [] (writtenLine e :: raws) =
      if e.2.toList.getLast? = some '\\' then
        joinLines (e.1.toList ++ '=' :: e.2.toList.dropLast) raws
      else writtenLine e :: joinLines [] raws := by
  obtain ⟨hstart, hkept⟩ : trimStart (writtenLine e) = writtenLine e ∧
      isIgnored (writtenLine e) = false := hkey.kept ('=' :: e.2.toList)
  have hlast : (writtenLine e).getLast? = some '\\' ↔ e.2.toList.getLast? = some '\\' := by
    rw [getLast?_writtenLine]
    cases e.2.toList.getLast? <;> simp
  simp only [joinLines_cons, hstart, hkept, hlast, Bool.and_false, Bool.false_eq_true, if_false,
    List.nil_append]
  split
  · rename_i hmark
    have hne : e.2.toList ≠ [] := by
      intro hnil
      simp [hnil] at hmark
    rw [writtenLine, List.dropLast_append_of_ne_nil (List.cons_ne_nil _ _),
      List.dropLast_cons_of_ne_nil hne]
  · rfl

/-- Lines whose values do not end in a backslash stay as they are written. -/
theorem joinLines_map_append {raws : List (List Char)}
    (h : ∀ e ∈ entries, PlainKey e.1 ∧ e.2.toList.getLast? ≠ some '\\') :
    joinLines [] (entries.map writtenLine ++ raws) =
      entries.map writtenLine ++ joinLines [] raws := by
  induction entries with
  | nil => rfl
  | cons e rest ih =>
    obtain ⟨⟨hkey, hlast⟩, hrest⟩ := List.forall_mem_cons.1 h
    rw [List.map_cons, List.cons_append, joinLines_written hkey, if_neg hlast, ih hrest,
      List.cons_append]

/-- Joining makes no lines. A line that is pending needs one more to be joined to. -/
theorem length_joinLines_le {pending : List Char} {raws : List (List Char)}
    (h : pending = [] ∨ raws ≠ []) : (joinLines pending raws).length ≤ raws.length := by
  induction raws generalizing pending with
  | nil =>
    obtain rfl := h.resolve_right (not_not_intro rfl)
    exact Nat.le_refl 0
  | cons raw rest ih =>
    have hfresh := ih (.inl rfl)
    rw [joinLines_cons, List.length_cons]
    split
    · omega
    · split
      · cases rest with
        | nil =>
          unfold joinLines
          split <;> simp
        | cons next rest =>
          have hnext : (joinLines (pending ++ (trimStart raw).dropLast) (next :: rest)).length ≤
              (next :: rest).length := ih (.inr (List.cons_ne_nil next rest))
          omega
      · rw [List.length_cons]
        omega

/-- The properties that lines state. -/
theorem stated_written (h : ∀ e ∈ entries, PlainKey e.1 ∧ PlainValue e.2) :
    ((entries.map writtenLine).map splitProperty).filter (fun p => !p.1.isEmpty) = entries := by
  have hsplit : (entries.map writtenLine).map splitProperty = entries := by
    rw [List.map_map]
    refine (List.map_congr_left fun e he => ?_).trans (List.map_id entries)
    exact splitProperty_writtenLine (h e he).1 (h e he).2
  rw [hsplit, List.filter_eq_self]
  intro e he
  simpa using (h e he).1.nonempty

end

theorem length_properties_parse_le (text : String) :
    (parse text).properties.entries.length ≤ (joinLines [] (lines text.toList)).length := by
  calc (parse text).properties.entries.length
      ≤ (statedProperties text).length := Properties.length_ofList_le _
    _ ≤ ((joinLines [] (lines text.toList)).map splitProperty).length := List.length_filter_le _ _
    _ = (joinLines [] (lines text.toList)).length := List.length_map _

section
variable {m : Manifest} {front rest : List (String × String)} {e : String × String}

/-- The first value that ends in a backslash, and the lines of the properties around it. -/
theorem Plain.joinLines_render (h : m.Plain) (hentries : m.properties.entries = front ++ e :: rest)
    (hfront : ∀ x ∈ front, x.2.toList.getLast? ≠ some '\\') (he : e.2.toList.getLast? = some '\\') :
    joinLines [] (lines m.render.toList) = front.map writtenLine ++
      joinLines (e.1.toList ++ '=' :: e.2.toList.dropLast) (rest.map writtenLine) := by
  have hkeys : ∀ x ∈ front, PlainKey x.1 ∧ x.2.toList.getLast? ≠ some '\\' := fun x hx =>
    ⟨(h x (by simp [hentries, hx])).1, hfront x hx⟩
  have hkey : PlainKey e.1 := (h e (by simp [hentries])).1
  rw [h.lines_render, hentries, List.map_append, List.map_cons, joinLines_map_append hkeys,
    joinLines_written hkey, if_pos he]

/-- The line swallows the next one, so there are fewer joined lines than properties. -/
theorem Plain.parse_render_ne_of_swallows (h : m.Plain) {next : String × String}
    (hentries : m.properties.entries = front ++ e :: next :: rest)
    (hfront : ∀ x ∈ front, x.2.toList.getLast? ≠ some '\\') (he : e.2.toList.getLast? = some '\\') :
    parse m.render ≠ m := by
  intro hparse
  have hlines := length_properties_parse_le m.render
  have hswallow : (joinLines (e.1.toList ++ '=' :: e.2.toList.dropLast)
      ((next :: rest).map writtenLine)).length ≤ ((next :: rest).map writtenLine).length :=
    length_joinLines_le (.inr (by simp))
  rw [hparse, h.joinLines_render hentries hfront he, hentries] at hlines
  simp only [List.length_append, List.length_map, List.length_cons] at hlines hswallow
  omega

/-- The last line has none to swallow, and loses the backslash. -/
theorem Plain.parse_render_ne_of_last (h : m.Plain) (hentries : m.properties.entries = front ++ [e])
    (hfront : ∀ x ∈ front, x.2.toList.getLast? ≠ some '\\') (he : e.2.toList.getLast? = some '\\') :
    parse m.render ≠ m := by
  intro hparse
  have hplain : ∀ x ∈ front, PlainKey x.1 ∧ PlainValue x.2 := fun x hx =>
    h x (by simp [hentries, hx])
  have hkey : PlainKey e.1 := (h e (by simp [hentries])).1
  have hne : e.1.isEmpty = false := by simpa using hkey.nonempty
  have hstated : statedProperties m.render =
      front ++ [(e.1, String.ofList (trim e.2.toList.dropLast))] := by
    rw [statedProperties, h.joinLines_render hentries hfront he, List.map_append, List.filter_append,
      stated_written hplain]
    simp [joinLines, splitProperty_append hkey, hne]
  have hread := Properties.get?_ofList_concat front e.1 (String.ofList (trim e.2.toList.dropLast))
  have hwritten := Properties.get?_of_mem (t := m.properties) (e := e) (by simp [hentries])
  rw [← hstated] at hread
  rw [← hparse] at hwritten
  have hvalue := Option.some.inj (hread.symm.trans hwritten)
  rw [← String.toList_inj, String.toList_ofList] at hvalue
  have hlength := (trim_isInfix e.2.toList.dropLast).length_le
  have hnonempty : e.2.toList.length ≠ 0 := by
    intro hzero
    simp [List.length_eq_zero_iff.1 hzero] at he
  rw [hvalue, List.length_dropLast] at hlength
  omega

/-- Of the plain manifests, those read back in which no value ends in a backslash. -/
theorem Plain.parse_render_iff (h : m.Plain) :
    parse m.render = m ↔ ∀ e ∈ m.properties.entries, e.2.toList.getLast? ≠ some '\\' := by
  constructor
  · intro hparse e he hlast
    have hsome := (List.find?_isSome (p := fun e => e.2.toList.getLast? == some '\\')).2
      ⟨e, he, beq_iff_eq.2 hlast⟩
    obtain ⟨first, hfind⟩ := Option.isSome_iff_exists.1 hsome
    obtain ⟨hfirst, front, rest, hentries, hfront⟩ := List.find?_eq_some_iff_append.1 hfind
    simp only [beq_iff_eq, Bool.not_eq_true', beq_eq_false_iff_ne] at hfirst hfront
    cases rest with
    | nil => exact h.parse_render_ne_of_last hentries hfront hfirst hparse
    | cons next rest => exact h.parse_render_ne_of_swallows hentries hfront hfirst hparse
  · intro hlast
    have hjoined : joinLines [] (m.properties.entries.map writtenLine ++ []) =
        m.properties.entries.map writtenLine ++ [] :=
      joinLines_map_append fun e he => ⟨(h e he).1, hlast e he⟩
    rw [List.append_nil] at hjoined
    have hstated : statedProperties m.render = m.properties.entries := by
      rw [statedProperties, h.lines_render, hjoined, stated_written h]
    calc parse m.render
        = ⟨Properties.ofList m.properties.entries⟩ := by rw [parse, hstated]
      _ = m := by rw [Properties.ofList_entries]

end

/-- **Which manifests read back.** A manifest is read from what is written of it exactly when each
key is text that a line can state and so is each value, and no value ends in a backslash. Every
manifest is built by setting its properties (`Properties.ofList_entries`), so none is left out. -/
theorem parse_render (m : Manifest) : parse m.render = m ↔ ∀ e ∈ m.properties.entries,
    PlainKey e.1 ∧ PlainValue e.2 ∧ e.2.toList.getLast? ≠ some '\\' := by
  constructor
  · intro hparse e he
    have hplain : m.Plain := hparse ▸ plain_parse m.render
    exact ⟨(hplain e he).1, (hplain e he).2, hplain.parse_render_iff.1 hparse e he⟩
  · intro h
    have hplain : m.Plain := fun e he => ⟨(h e he).1, (h e he).2.1⟩
    exact hplain.parse_render_iff.2 fun e he => (h e he).2.2

example :
    let m := (empty.withUniqueName "posix").withIncludedHeaders ["stdio.h", "time.h"]
    ∀ e ∈ m.properties.entries,
      PlainKey e.1 ∧ PlainValue e.2 ∧ e.2.toList.getLast? ≠ some '\\' := by
  decide

/-- **What was read reads back unless a value ends in a backslash.** -/
theorem parse_render_parse (text : String) : parse (parse text).render = parse text ↔
    ∀ e ∈ (parse text).properties.entries, e.2.toList.getLast? ≠ some '\\' :=
  (plain_parse text).parse_render_iff

/-- The white space after the backslash keeps the first line from going on. It is not written again,
so the second property is lost. -/
theorem parse_render_parse_swallows :
    (parse "root=C:\\sdk\\ \nunique_name=sdl\n").uniqueName = some "sdl" ∧
      (parse (parse "root=C:\\sdk\\ \nunique_name=sdl\n").render).uniqueName = none ∧
      parse (parse "root=C:\\sdk\\ \nunique_name=sdl\n").render ≠
        parse "root=C:\\sdk\\ \nunique_name=sdl\n" := by
  decide

end SymbolAtlas.Manifest
