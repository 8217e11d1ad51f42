import SymbolAtlas.Proofs.Files
import SymbolAtlas.Proofs.Text

/-!
# What a change can touch

Where a path leads is a matter of its pieces, as long as it leads anywhere. So a change that makes
directories and writes files touches the places that its paths spell, and no others.

* `follow`, `Path.spot`: the place that pieces, or a path, spell;
* `Path.spot_join`: a name below a path;
* `Path.pieces_of_mem_ancestors`: an ancestor of a path begins as the path does;
* `Edit.Within`: a change touches no more than is allowed;
* `Edit.within_write`, `Edit.within_ensureDir`: what writing a file and making a directory touch.
-/

namespace SymbolAtlas.Files

/-! ## Places that are spelled -/

/-- The place that pieces lead to, when there is a directory wherever one is needed. -/
def follow : Place → List String → Place
  | q, [] => q
  | q, piece :: rest =>
    if Path.isIdle piece then follow q rest
    else if piece = ".." then follow q.dropLast rest
    else follow (q ++ [piece]) rest

theorem follow_append (q : Place) (xs ys : List String) :
    follow q (xs ++ ys) = follow (follow q xs) ys := by
  induction xs generalizing q with
  | nil => rfl
  | cons x rest ih =>
    simp only [List.cons_append, follow]
    split
    · exact ih q
    · split
      · exact ih _
      · exact ih _

theorem follow_empty (q : Place) : follow q [""] = q :=
  rfl

theorem follow_empties (q : Place) {pieces : List String} (h : ∀ piece ∈ pieces, piece = "") :
    follow q pieces = q := by
  induction pieces with
  | nil => rfl
  | cons piece rest ih =>
    obtain ⟨rfl, hrest⟩ := List.forall_mem_cons.1 h
    exact ih hrest

theorem follow_single {piece : String} (hidle : Path.isIdle piece = false)
    (hmove : Tree.isMove piece = false) (q : Place) : follow q [piece] = q ++ [piece] := by
  have hup : piece ≠ ".." := by
    rintro rfl
    exact absurd hmove (by decide)
  simp [follow, hidle, hup]

namespace Path

variable {p a : Path} {name : String} {wd : Place}

/-- Where the pieces of a path start, for relative paths at `wd`. -/
def base (wd : Place) (p : Path) : Place :=
  if p.isAbsolute then [] else wd

/-- The place that a path spells. -/
def spot (wd : Place) (p : Path) : Place :=
  follow (p.base wd) p.pieces

/-- The place lies on the way that the path spells. -/
def Passes (wd : Place) (p : Path) (q : Place) : Prop :=
  ∃ front, front <+: p.pieces ∧ q = follow (p.base wd) front

/-- The way to a path goes on below it. -/
theorem pieces_append {rest : String} (hp : p.text ≠ "") (hlast : p.text.toList.getLast? ≠ some '/')
    (hrest : rest.toList.head? ≠ some '/') (wd : Place) :
    (p.join rest).pieces = p.pieces ++ (Path.mk rest).pieces ∧ (p.join rest).base wd = p.base wd := by
  have htext : (p.join rest).text = p.text ++ "/" ++ rest := by simp [join, hp, hlast, hrest]
  constructor
  · rw [pieces, htext, String.toList_append, String.toList_append, List.append_assoc]
    exact (congrArg (List.map String.ofList) (List.splitOn_append_cons_self _ _)).trans List.map_append
  · have hhead : (p.join rest).text.toList.head? = p.text.toList.head? := by
      obtain ⟨c, cs, hcs⟩ := List.exists_cons_of_ne_nil (mt String.toList_eq_nil_iff.1 hp)
      simp [htext, hcs]
    rw [base, base, isAbsolute, isAbsolute, hhead]

theorem pieces_name (hname : IsName name) : (Path.mk name).pieces = [name] := by
  rw [pieces, List.splitOn_eq_singleton hname.piece]
  simp

/-- A name below a path is one more piece, but for an empty one that ends the path. -/
theorem pieces_below (p : Path) (hname : IsName name) (wd : Place) :
    ∃ front, (p.join name).pieces = front ++ [name] ∧
      (p.pieces = front ∨ p.pieces = front ++ [""]) ∧ (p.join name).base wd = p.base wd := by
  by_cases hp : p.text = ""
  · have hjoin : p.join name = ⟨name⟩ := by simp [join, hp]
    have habsolute : (Path.mk name).isAbsolute = false := by
      simpa [isAbsolute] using fun hhead => hname.piece (List.mem_of_head? hhead)
    refine ⟨[], by rw [hjoin, pieces_name hname]; rfl, .inr (by simp [pieces, hp]), ?_⟩
    rw [hjoin, base, habsolute, base, isAbsolute, hp]
    rfl
  · obtain ⟨front, -, hpieces, hfront⟩ := pieces_join hp hname
    exact ⟨front, hpieces, hfront, by rw [base, isAbsolute_join hp hname, ← base]⟩

/-- A name below a path is spelled below it. -/
theorem spot_join (p : Path) (hname : IsName name) (wd : Place) :
    (p.join name).spot wd = p.spot wd ++ [name] := by
  obtain ⟨front, hpieces, hfront, hbase⟩ := pieces_below p hname wd
  have hspot : p.spot wd = follow (p.base wd) front := by
    rcases hfront with hfront | hfront
    · rw [spot, hfront]
    · rw [spot, hfront, follow_append, follow_empty]
  rw [hspot, spot, hbase, hpieces, follow_append, follow_single hname.not_idle hname.stays]

/-- The way to a name below a path is the way to the path and one step more. -/
theorem passes_join (hname : IsName name) {q : Place} (h : (p.join name).Passes wd q) :
    q = p.spot wd ++ [name] ∨ p.Passes wd q := by
  obtain ⟨front, hpieces, hfront, hbase⟩ := pieces_below p hname wd
  obtain ⟨way, hway, rfl⟩ := h
  rw [hpieces, List.prefix_concat_iff] at hway
  rcases hway with rfl | hway
  · refine .inl ?_
    rw [← spot_join p hname, spot, hpieces]
  · refine .inr ⟨way, ?_, by rw [hbase]⟩
    rcases hfront with hfront | hfront <;> rw [hfront]
    · exact hway
    · exact hway.trans (List.prefix_append front _)

/-! ## Pieces and ancestors -/

theorem slash_not_mem_of_mem_pieces {piece : String} (h : piece ∈ p.pieces) :
    '/' ∉ piece.toList := by
  obtain ⟨w, hw, rfl⟩ := List.mem_map.1 h
  intro hmem
  rw [String.toList_ofList] at hmem
  have hslash := Text.no_separator_of_mem_splitOnP (p := (· == '/')) hw '/' hmem
  cases hslash

theorem pieces_intercalate {pieces : List String} (hne : pieces ≠ [])
    (h : ∀ piece ∈ pieces, '/' ∉ piece.toList) :
    (Path.mk ("/".intercalate pieces)).pieces = pieces := by
  have hsplit : ("/".intercalate pieces).toList.splitOn '/' = pieces.map String.toList := by
    rw [String.toList_intercalate]
    exact List.splitOn_intercalate '/' (by simpa using h) (by simpa using hne)
  rw [Path.pieces, hsplit, List.map_map]
  simp

/-- An absolute path begins with an empty piece. -/
theorem isAbsolute_iff : p.isAbsolute = true ↔ ∃ rest, rest ≠ [] ∧ p.pieces = "" :: rest := by
  rw [isAbsolute, beq_iff_eq]
  by_cases hslash : '/' ∈ p.text.toList
  · obtain ⟨a, b, htext, ha⟩ := List.eq_append_cons_of_mem hslash
    rw [pieces, htext, Text.splitOn_append_cons ha, List.map_cons]
    constructor
    · intro hhead
      cases a with
      | nil => exact ⟨_, by simp [List.splitOn_ne_nil], rfl⟩
      | cons c cs =>
        obtain rfl := Option.some.inj hhead
        exact absurd List.mem_cons_self ha
    · rintro ⟨rest, -, heq⟩
      obtain rfl := String.ofList_eq_empty_iff.1 (List.cons.inj heq).1
      rfl
  · rw [pieces, List.splitOn_eq_singleton hslash]
    refine iff_of_false (fun hhead => hslash (List.mem_of_head? hhead)) ?_
    rintro ⟨rest, hrest, heq⟩
    exact hrest (List.cons.inj heq).2.symm

theorem dropIdleEnd_isPrefix (pieces : List String) : dropIdleEnd pieces <+: pieces := by
  have h := List.reverse_prefix.2 (List.dropWhile_suffix (l := pieces.reverse) isIdle)
  rwa [List.reverse_reverse] at h

theorem parent?_empty : (Path.mk "").parent? = none := by decide

theorem parent?_root : (Path.mk "/").parent? = none := by decide

theorem isAbsolute_eq_of_pieces {first : String} {rest front : List String}
    (hp : p.pieces = first :: rest) (ha : a.pieces = first :: front)
    (h : first = "" → rest ≠ [] ∧ front ≠ []) : a.isAbsolute = p.isAbsolute := by
  have habsolute {b : Path} {more : List String} (hb : b.pieces = first :: more)
      (hmore : first = "" → more ≠ []) : b.isAbsolute = true ↔ first = "" := by
    rw [isAbsolute_iff, hb]
    constructor
    · rintro ⟨_, -, heq⟩
      exact (List.cons.inj heq).1
    · rintro rfl
      exact ⟨more, hmore rfl, rfl⟩
  rw [Bool.eq_iff_iff, habsolute ha fun heq => (h heq).2, habsolute hp fun heq => (h heq).1]

/-- The parent of a path that has a parent itself begins as the path does. -/
theorem pieces_parent {parent : Path} (h : p.parent? = some parent)
    (hparent : parent.parent? ≠ none) :
    parent.pieces <+: p.pieces ∧ parent.isAbsolute = p.isAbsolute := by
  unfold parent? at h
  split at h
  · cases h
  rename_i first rest hpieces
  have hslash : ∀ piece ∈ first :: rest, '/' ∉ piece.toList :=
    fun piece hpiece => slash_not_mem_of_mem_pieces (hpieces ▸ hpiece)
  split at h
  · split at h
    · cases h
    · obtain rfl := Option.some.inj h
      exact absurd parent?_empty hparent
  rename_i hkept
  have hrest : rest ≠ [] := by
    rintro rfl
    exact hkept rfl
  split at h
  · obtain rfl := Option.some.inj h
    by_cases hfirst : first = ""
    · rw [if_pos (String.isEmpty_iff.2 hfirst)] at hparent
      exact absurd parent?_root hparent
    · rw [if_neg (mt String.isEmpty_iff.1 hfirst)]
      have hpieces' : (Path.mk first).pieces = [first] := by
        rw [pieces, List.splitOn_eq_singleton (hslash first List.mem_cons_self)]
        simp
      exact ⟨by simp [hpieces, hpieces'],
        isAbsolute_eq_of_pieces hpieces hpieces' fun heq => absurd heq hfirst⟩
  · rename_i hfront
    obtain rfl := Option.some.inj h
    have hbegins := ((dropIdleEnd_isPrefix _).trans (List.dropLast_prefix _)).trans
      (dropIdleEnd_isPrefix rest)
    have hpieces' := pieces_intercalate (List.cons_ne_nil first _) fun piece hpiece =>
      hslash piece (((List.prefix_cons_inj first).2 hbegins).subset hpiece)
    exact ⟨by rw [hpieces', hpieces]; exact (List.prefix_cons_inj first).2 hbegins,
      isAbsolute_eq_of_pieces hpieces hpieces' fun _ => ⟨hrest, hfront⟩⟩

/-- The ancestors of a path begin as it does. -/
theorem pieces_of_mem_ancestors (h : a ∈ p.ancestors) :
    a.pieces <+: p.pieces ∧ a.isAbsolute = p.isAbsolute := by
  unfold ancestors at h
  generalize p.text.length = count at h
  induction count generalizing p with
  | zero => cases h
  | succ count ih =>
    unfold firstAncestors at h
    split at h
    · rename_i parent hparent
      rcases List.mem_cons.1 h with rfl | h
      · exact ⟨List.prefix_refl _, rfl⟩
      · -- `parent` has ancestors, so it is not one of the paths that may be spelled otherwise.
        have hmore : parent.parent? ≠ none := by
          intro hnone
          cases count with
          | zero => cases h
          | succ count =>
            unfold firstAncestors at h
            rw [hnone] at h
            cases h
        obtain ⟨hpieces, habsolute⟩ := pieces_parent hparent hmore
        obtain ⟨hbegins, hsame⟩ := ih h
        exact ⟨hbegins.trans hpieces, hsame.trans habsolute⟩
    · cases h

end Path

/-! ## One step -/

namespace Tree

variable {t u v : Tree} {p : Path} {q r : Place} {name : String}

/-- Walking leads where the pieces spell. -/
theorem follow_of_walk {pieces : List String} (h : t.walk q pieces = .ok r) : r = follow q pieces := by
  induction pieces generalizing q with
  | nil => exact (Except.ok.inj h).symm
  | cons piece rest ih =>
    unfold walk at h
    unfold follow
    split at h
    · cases h
    · cases h
    · split at h
      · rw [if_pos ‹_›]
        exact ih h
      · rw [if_neg ‹_›]
        split at h
        · rw [if_pos ‹_›]
          exact ih h
        · rw [if_neg ‹_›]
          split at h
          · cases h
          · exact ih h

/-- A path that leads anywhere leads where it spells. -/
theorem eq_spot_of_place (h : t.place p = .ok q) : q = p.spot t.workingDir := by
  obtain ⟨-, -, hwalk⟩ := except_bind_eq_ok.1 h
  exact follow_of_walk hwalk

/-- The last piece that is not empty, and the empty ones behind it. -/
theorem exists_last_piece {pieces front : List String} {last : String}
    (h : pieces.reverse.dropWhile (·.isEmpty) = last :: front) : last ≠ "" ∧
      ∃ empties, pieces = front.reverse ++ last :: empties ∧ ∀ piece ∈ empties, piece = "" := by
  constructor
  · have hhead := List.head?_dropWhile_not (·.isEmpty) pieces.reverse
    rw [h] at hhead
    simpa using hhead
  · refine ⟨(pieces.reverse.takeWhile (·.isEmpty)).reverse, ?_, fun piece hpiece =>
      String.isEmpty_iff.1 (List.mem_takeWhile_imp (List.mem_reverse.1 hpiece))⟩
    have hboth := congrArg List.reverse
      (List.takeWhile_append_dropWhile (p := (·.isEmpty)) (l := pieces.reverse))
    rw [h] at hboth
    simpa using hboth.symm

/-- The last step of a path leads to the place that it spells. -/
theorem spot_of_lastStep (h : t.lastStep p = .ok (q, name)) (hmove : isMove name = false) :
    p.spot t.workingDir = q ++ [name] := by
  obtain ⟨_, -, h⟩ := except_bind_eq_ok.1 h
  split at h
  · obtain ⟨-, rfl⟩ := Prod.mk.inj (Except.ok.inj h)
    cases hmove
  · rename_i last front hlast
    obtain ⟨dir, hwalk, h⟩ := except_bind_eq_ok.1 h
    split at h
    · obtain ⟨rfl, rfl⟩ := Prod.mk.inj (Except.ok.inj h)
      obtain ⟨hne, empties, hpieces, hempties⟩ := exists_last_piece hlast
      have hidle : Path.isIdle last = false := by
        simp only [isMove, Bool.or_eq_false_iff] at hmove
        simp [Path.isIdle, hne, hmove.1]
      rw [Path.spot, hpieces, follow_append, ← List.singleton_append, follow_append,
        follow_empties _ hempties, follow_single hidle hmove, follow_of_walk hwalk]
      rfl
    · cases h
    · cases h

/-- From `t` to `u` files have been put in places that `written` allows, and directories in places
that `made` allows and where nothing was, and nothing else is different. -/
structure Confines (made written : Place → Prop) (t u : Tree) : Prop where
  workingDir : u.workingDir = t.workingDir
  changed : ∀ q, u.get? q = t.get? q ∨ written q ∨
    made q ∧ t.get? q = none ∧ u.get? q = some .directory

variable {made written : Place → Prop}

theorem Confines.refl (t : Tree) : Confines made written t t :=
  ⟨rfl, fun _ => .inl rfl⟩

theorem Confines.trans (h : Confines made written t u) (h' : Confines made written u v) :
    Confines made written t v := by
  refine ⟨h'.workingDir.trans h.workingDir, fun q => ?_⟩
  rcases h'.changed q with hsame | hwritten | ⟨hmade, hnone, hdir⟩
  · rw [hsame]
    exact h.changed q
  · exact .inr (.inl hwritten)
  · rcases h.changed q with hsame | hwritten | ⟨-, -, hdir'⟩
    · exact .inr (.inr ⟨hmade, hsame ▸ hnone, hdir⟩)
    · exact .inr (.inl hwritten)
    · cases hnone.symm.trans hdir'

theorem confines_put {entry : Entry} (hq : q ≠ [])
    (h : written q ∨ made q ∧ t.get? q = none ∧ entry = .directory) :
    Confines made written t (t.put q entry) := by
  refine ⟨rfl, fun r => ?_⟩
  rw [get?_put t q r entry hq]
  split
  · rename_i heq
    rw [heq]
    exact .inr (h.imp_right fun ⟨hmade, hnone, hdir⟩ => ⟨hmade, hnone, congrArg some hdir⟩)
  · exact .inl rfl

theorem confines_write {contents : Bytes} (h : t.write p contents = .ok u)
    (hwritten : written (p.spot t.workingDir)) : Confines made written t u := by
  obtain ⟨⟨dir, name⟩, hlast, h⟩ := except_bind_eq_ok.1 h
  dsimp only at h
  split at h
  · cases h
  rename_i hmove
  simp only [Bool.or_eq_true, not_or, Bool.not_eq_true] at hmove
  rw [spot_of_lastStep hlast hmove.1] at hwritten
  split at h
  · cases h
  split at h
  · cases h
  · exact Except.ok.inj h ▸ confines_put (by simp) (.inl hwritten)

theorem confines_makeOne (h : t.makeOne p = .ok u) (hmade : made (p.spot t.workingDir)) :
    Confines made written t u := by
  obtain ⟨⟨dir, name⟩, hlast, h⟩ := except_bind_eq_ok.1 h
  dsimp only at h
  split at h
  · cases h
  rename_i hmove
  rw [spot_of_lastStep hlast (Bool.not_eq_true _ ▸ hmove)] at hmade
  split at h
  · cases h
  split at h
  · cases h
  · rename_i hnone
    exact Except.ok.inj h ▸ confines_put (by simp) (.inr ⟨hmade, hnone, rfl⟩)

end Tree

/-! ## Changes in several steps -/

namespace Edit

open SymbolAtlas.Files.Tree

/-- Where relative paths are spelled from `wd`, the change touches no more than is allowed, whether it
fails or not. -/
def Within {ε α : Type} (wd : Place) (made written : Place → Prop) (e : Edit ε α) : Prop :=
  ∀ t : Tree, t.workingDir = wd → Confines made written t (e.treeAfter t)

section

variable {ε δ α β : Type} {wd : Place} {made written : Place → Prop} {p : Path}

theorem within_pure (a : α) : (pure a : Edit ε α).Within wd made written :=
  fun t _ => .refl t

theorem within_throw (e : ε) : (throw e : Edit ε α).Within wd made written :=
  fun t _ => .refl t

theorem within_get : (get : Edit ε Tree).Within wd made written :=
  fun t _ => .refl t

theorem Within.bind {e : Edit ε α} {f : α → Edit ε β} (h : e.Within wd made written)
    (hf : ∀ a, (f a).Within wd made written) : (e >>= f).Within wd made written := by
  intro t ht
  have he := h t ht
  change Confines made written t (match e.run t with | (r, u) => ExceptT.bindCont f r u).2
  rw [treeAfter] at he
  rcases hrun : e.run t with ⟨_ | a, u⟩
  · rw [hrun] at he
    exact he
  · rw [hrun] at he
    exact he.trans (hf a u (he.workingDir.trans ht))

theorem Within.adapt {f : ε → δ} {e : Edit ε α} (h : e.Within wd made written) :
    Within wd made written (ExceptT.adapt f e : Edit δ α) := by
  intro t ht
  have he := h t ht
  change Confines made written t (match e.run t with | (r, u) => (r.mapError f, u)).2
  rw [treeAfter] at he
  exact he

theorem Within.forM {ι : Type} {items : List ι} {f : ι → Edit ε Unit}
    (h : ∀ x ∈ items, (f x).Within wd made written) : (items.forM f).Within wd made written := by
  induction items with
  | nil => exact within_pure _
  | cons x rest ih =>
    obtain ⟨hx, hrest⟩ := List.forall_mem_cons.1 h
    exact hx.bind fun _ => ih hrest

/-- Writing a file touches its place. -/
theorem within_write (context : String) (contents : Bytes) (h : written (p.spot wd)) :
    (Edit.write context p contents).Within wd made written := by
  refine Within.adapt fun t ht => ?_
  cases hwrite : t.write p contents with
  | error fault => simpa only [treeAfter, whole, ExceptT.run, hwrite] using .refl t
  | ok u =>
    simpa only [treeAfter, whole, ExceptT.run, hwrite] using confines_write hwrite (ht ▸ h)

theorem within_makeUnlessThere (h : made (p.spot wd)) :
    (makeUnlessThere p).Within wd made written := by
  intro t ht
  simp only [treeAfter, makeUnlessThere, ExceptT.run]
  split
  · exact confines_makeOne ‹_› (ht ▸ h)
  · exact .refl t
  · split
    · exact .refl t
    · exact .refl t

theorem within_makeDirectory (h : made (p.spot wd)) :
    (makeDirectory p).Within wd made written := by
  refine (within_makeUnlessThere h).bind fun there => ?_
  cases there with
  | true => exact within_pure _
  | false => exact within_throw _

/-- Making the missing ones of some directories touches their places. -/
theorem within_makeMissing {passed paths : List Path} (hpassed : ∀ a ∈ passed, made (a.spot wd))
    (h : ∀ a ∈ paths, made (a.spot wd)) :
    (makeNearest passed paths >>= fun missing => missing.forM makeDirectory).Within wd made written := by
  induction paths generalizing passed with
  | nil => exact .forM fun a ha => within_makeDirectory (hpassed a ha)
  | cons a rest ih =>
    obtain ⟨ha, hrest⟩ := List.forall_mem_cons.1 h
    rw [makeNearest, bind_assoc]
    refine (within_makeUnlessThere ha).bind fun there => ?_
    cases there with
    | true => exact .forM fun a ha => within_makeDirectory (hpassed a ha)
    | false => exact ih (List.forall_mem_cons.2 ⟨ha, hpassed⟩) hrest

/-- Making a directory touches the places on the way to it. -/
theorem within_ensureDir (h : ∀ q, p.Passes wd q → made q) :
    (ensureDir p).Within wd made written := by
  have hancestors : ∀ a ∈ p.ancestors, made (a.spot wd) := by
    intro a ha
    obtain ⟨hbegins, habsolute⟩ := Path.pieces_of_mem_ancestors ha
    refine h _ ⟨a.pieces, hbegins, ?_⟩
    rw [Path.spot, Path.base, habsolute, ← Path.base]
  refine within_get.bind fun t => ?_
  split
  · exact within_pure _
  · exact within_makeMissing (List.forall_mem_nil _) hancestors

theorem within_makeDir (h : ∀ q, p.Passes wd q → made q) :
    (makeDir p).Within wd made written :=
  (within_ensureDir h).adapt

end

end Edit

end SymbolAtlas.Files
