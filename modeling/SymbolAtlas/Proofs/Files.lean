import SymbolAtlas.Files.Access
import SymbolAtlas.Proofs.Except

namespace SymbolAtlas.Files

/-! ## Joined paths -/

namespace Path

/-- A name that an entry of a directory can have. -/
structure IsName (name : String) : Prop where
  nonempty : name ≠ ""
  piece : '/' ∉ name.toList
  stays : Tree.isMove name = false

theorem IsName.not_idle {name : String} (h : IsName name) : isIdle name = false := by
  have hmove := h.stays
  simp only [Tree.isMove, Bool.or_eq_false_iff] at hmove
  simp [isIdle, hmove.1, h.nonempty]

theorem IsName.toList_ne_nil {name : String} (h : IsName name) : name.toList ≠ [] := by
  simpa using h.nonempty

theorem IsName.getLast? {name : String} (h : IsName name) : name.toList.getLast? ≠ some '/' :=
  fun hlast => h.piece (List.mem_of_getLast? hlast)

variable {p : Path} {name : String}

/-- The text of a joined path. -/
theorem text_join (hp : p.text ≠ "") (hname : IsName name) :
    (p.text.toList.getLast? = some '/' ∧ (p.join name).text = p.text ++ name) ∨
      (p.join name).text = p.text ++ "/" ++ name := by
  have hhead : name.toList.head? ≠ some '/' := fun hhead => hname.piece (List.mem_of_head? hhead)
  unfold join
  by_cases hlast : p.text.toList.getLast? = some '/'
  · exact .inl ⟨hlast, by simp [hhead, hp, hlast]⟩
  · exact .inr (by simp [hhead, hp, hlast])

/-- A joined path begins as the path it is joined to. -/
theorem exists_text_join (hp : p.text ≠ "") (hname : IsName name) :
    ∃ rest, (p.join name).text = p.text ++ rest := by
  rcases text_join hp hname with ⟨-, htext⟩ | htext
  · exact ⟨_, htext⟩
  · exact ⟨_, htext.trans (String.append_assoc ..)⟩

theorem text_join_ne (hp : p.text ≠ "") (hname : IsName name) : (p.join name).text ≠ "" := by
  rcases text_join hp hname with ⟨-, h⟩ | h <;> simp [h, hp]

theorem isAbsolute_join (hp : p.text ≠ "") (hname : IsName name) :
    (p.join name).isAbsolute = p.isAbsolute := by
  have hhead {rest : String} : (p.text ++ rest).toList.head? = p.text.toList.head? := by
    cases h : p.text.toList with
    | nil => exact absurd h (by simpa using hp)
    | cons c cs => simp [h]
  rcases text_join hp hname with ⟨-, h⟩ | h
  · rw [isAbsolute, isAbsolute, h, hhead]
  · rw [isAbsolute, isAbsolute, h, String.append_assoc, hhead]

theorem getLast?_text_join (hp : p.text ≠ "") (hname : IsName name) :
    (p.join name).text.toList.getLast? ≠ some '/' := by
  have happend (front : String) : (front ++ name).toList.getLast? = name.toList.getLast? := by
    rw [String.toList_append, List.getLast?_append]
    cases h : name.toList.getLast? with
    | none => exact absurd (List.getLast?_eq_none_iff.1 h) hname.toList_ne_nil
    | some c => rfl
  rcases text_join hp hname with ⟨-, h⟩ | h <;> rw [h, happend] <;> exact hname.getLast?

/-- The name is the last piece of the joined path. The pieces before it are those of the path, but
not the empty one after a slash at its end. -/
theorem pieces_join (hp : p.text ≠ "") (hname : IsName name) :
    ∃ front, front ≠ [] ∧ (p.join name).pieces = front ++ [name] ∧
      (p.pieces = front ∨ p.pieces = front ++ [""]) := by
  have hsplit (chars : List Char) : ((chars ++ '/' :: name.toList).splitOn '/').map String.ofList =
      (chars.splitOn '/').map String.ofList ++ [name] := by
    rw [List.splitOn_append_cons_self, List.splitOn_eq_singleton hname.piece]
    simp
  rcases text_join hp hname with ⟨hlast, h⟩ | h
  · obtain ⟨front, hfront⟩ := List.getLast?_eq_some_iff.1 hlast
    refine ⟨(front.splitOn '/').map String.ofList, by simp [List.splitOn_ne_nil], ?_, .inr ?_⟩
    · rw [pieces, h, String.toList_append, hfront, List.append_assoc]
      exact hsplit front
    · rw [pieces, hfront, List.splitOn_append_cons_self]
      simp
  · refine ⟨p.pieces, by simp [pieces, List.splitOn_ne_nil], ?_, .inl rfl⟩
    rw [pieces, h, String.toList_append, String.toList_append, List.append_assoc]
    exact hsplit p.text.toList

/-- A joined path has a parent, so it is the nearest of its ancestors. -/
theorem ancestors_join (hp : p.text ≠ "") (hname : IsName name) :
    ∃ rest, (p.join name).ancestors = p.join name :: rest := by
  obtain ⟨front, hfront, hpieces, -⟩ := pieces_join hp hname
  obtain ⟨first, rest, rfl⟩ := List.exists_cons_of_ne_nil hfront
  have hkept : dropIdleEnd (rest ++ [name]) = rest ++ [name] := by
    simp [dropIdleEnd, hname.not_idle]
  have hparent : ∃ parent, (p.join name).parent? = some parent := by
    rw [parent?, hpieces]
    simp only [List.cons_append, hkept]
    split
    · simp_all
    · split <;> exact ⟨_, rfl⟩
  obtain ⟨parent, hparent⟩ := hparent
  have hlength : (p.join name).text.length ≠ 0 := by simpa using text_join_ne hp hname
  obtain ⟨n, hn⟩ := Nat.exists_eq_succ_of_ne_zero hlength
  exact ⟨firstAncestors n parent, by simp [ancestors, hn, firstAncestors, hparent]⟩

structure Fits (p : Path) : Prop where
  noNul : '\x00' ∉ p.text.toList
  short : p.text.utf8ByteSize ≤ Tree.pathLimit
  pieces : ∀ piece ∈ p.pieces, piece.utf8ByteSize ≤ Tree.nameLimit

instance (p : Path) : Decidable p.Fits :=
  decidable_of_iff ('\x00' ∉ p.text.toList ∧ p.text.utf8ByteSize ≤ Tree.pathLimit ∧
      ∀ piece ∈ p.pieces, piece.utf8ByteSize ≤ Tree.nameLimit)
    ⟨fun ⟨hnoNul, hshort, hpieces⟩ => ⟨hnoNul, hshort, hpieces⟩,
      fun h => ⟨h.noNul, h.short, h.pieces⟩⟩

theorem Fits.last (h : (p.join name).Fits) (hp : p.text ≠ "") (hname : IsName name) :
    name.utf8ByteSize ≤ Tree.nameLimit := by
  obtain ⟨front, -, hpieces, -⟩ := pieces_join hp hname
  exact h.pieces name (by simp [hpieces])

theorem Fits.front (h : (p.join name).Fits) (hp : p.text ≠ "") (hname : IsName name) : p.Fits := by
  obtain ⟨front, -, hpieces, hfront⟩ := pieces_join hp hname
  obtain ⟨rest, htext⟩ := exists_text_join hp hname
  have hshort := h.short
  have hnoNul := h.noNul
  rw [htext, String.utf8ByteSize_append] at hshort
  rw [htext, String.toList_append, List.mem_append, not_or] at hnoNul
  refine ⟨hnoNul.1, by omega, fun piece hpiece => ?_⟩
  rcases hfront with hfront | hfront <;> rw [hfront] at hpiece
  · exact h.pieces piece (by simp [hpieces, hpiece])
  · rcases List.mem_append.1 hpiece with hpiece | hpiece
    · exact h.pieces piece (by simp [hpieces, hpiece])
    · simp [List.mem_singleton.1 hpiece]

end Path

open SymbolAtlas.Files.Path

namespace Tree

variable {t u : Tree} {p : Path} {q r : Place} {name : String}

theorem checkPath_of_fits (hp : p.text ≠ "") (h : p.Fits) : checkPath p = .ok () := by
  simp [checkPath, h.noNul, hp, Nat.not_lt.2 h.short]

/-! ## Walking -/

theorem walk_append (t : Tree) (q : Place) (xs ys : List String) :
    t.walk q (xs ++ ys) = t.walk q xs >>= fun r => t.walk r ys := by
  induction xs generalizing q with
  | nil => rfl
  | cons x rest ih =>
    simp only [List.cons_append, walk]
    split
    · rfl
    · rfl
    · split
      · exact ih q
      · split
        · exact ih _
        · split
          · rfl
          · exact ih _

/-- A name is one step into a directory. -/
theorem walk_name_eq_ok (hname : IsName name) : t.walk q [name] = .ok r ↔
    t.get? q = some .directory ∧ name.utf8ByteSize ≤ nameLimit ∧ r = q ++ [name] := by
  have hup : name ≠ ".." := by
    rintro rfl
    exact absurd hname.stays (by decide)
  simp only [walk, hname.not_idle, Bool.false_eq_true, if_false, if_neg hup]
  rcases t.get? q with _ | _ | _
  · simp
  · by_cases hlimit : nameLimit < name.utf8ByteSize
    · simp [hlimit, Nat.not_le.2 hlimit]
    · simp [hlimit, Nat.not_lt.1 hlimit, eq_comm]
  · simp

/-- The empty piece looks the directory up and stays in it. -/
theorem walk_empty_eq_ok : t.walk q [""] = .ok r ↔ t.get? q = some .directory ∧ r = q := by
  have hidle : isIdle "" = true := rfl
  simp only [walk, hidle, if_true]
  rcases t.get? q with _ | _ | _ <;> simp [eq_comm]

theorem walk_empty_bind (t : Tree) (q : Place) (name : String) :
    (t.walk q [""] >>= fun r => t.walk r [name]) = t.walk q [name] := by
  have hidle : isIdle "" = true := rfl
  rcases hq : t.get? q with _ | _ | _ <;> simp [walk, hidle, hq, bind, Except.bind]

/-- A path with a name leads where the name leads from the path. -/
theorem walk_join (t : Tree) (hp : p.text ≠ "") (hname : IsName name) :
    t.walk (t.start (p.join name)) (p.join name).pieces =
      t.walk (t.start p) p.pieces >>= fun q => t.walk q [name] := by
  obtain ⟨front, -, hpieces, hfront⟩ := pieces_join hp hname
  have hstart : t.start (p.join name) = t.start p := by rw [start, start, isAbsolute_join hp hname]
  rw [hstart, hpieces, walk_append]
  rcases hfront with hfront | hfront
  · rw [hfront]
  · rw [hfront, walk_append, bind_assoc]
    simp only [walk_empty_bind]

structure Leads (t : Tree) (p : Path) (q : Place) : Prop where
  nonempty : p.text ≠ ""
  walk : t.walk (t.start p) p.pieces = .ok q

theorem Leads.join (h : t.Leads p q) (hname : IsName name) (hdir : t.get? q = some .directory)
    (hsize : name.utf8ByteSize ≤ nameLimit) : t.Leads (p.join name) (q ++ [name]) where
  nonempty := text_join_ne h.nonempty hname
  walk := by
    rw [walk_join t h.nonempty hname, h.walk]
    exact (walk_name_eq_ok hname).2 ⟨hdir, hsize, rfl⟩

theorem leads_of_place (h : t.place p = .ok q) : t.Leads p q := by
  unfold place at h
  obtain ⟨_, hcheck, hwalk⟩ := except_bind_eq_ok.1 h
  refine ⟨?_, hwalk⟩
  intro hempty
  simp [checkPath, hempty] at hcheck

theorem Leads.place (h : t.Leads p q) (hfits : p.Fits) : t.place p = .ok q := by
  rw [Tree.place, checkPath_of_fits h.nonempty hfits]
  exact h.walk

theorem Leads.unique (h : t.Leads p q) (h' : t.Leads p r) : q = r :=
  Except.ok.inj (h.walk.symm.trans h'.walk)

/-- A path with a name leads to the entry of that name, where the path leads. -/
theorem Leads.of_join (h : t.Leads (p.join name) r) (hp : p.text ≠ "") (hname : IsName name) :
    ∃ q, t.Leads p q ∧ r = q ++ [name] := by
  have hwalk := h.walk
  rw [walk_join t hp hname] at hwalk
  obtain ⟨q, hq, hlast⟩ := except_bind_eq_ok.1 hwalk
  exact ⟨q, ⟨hp, hq⟩, ((walk_name_eq_ok hname).1 hlast).2.2⟩

theorem Leads.lastStep (h : t.Leads p q) (hname : IsName name) (hdir : t.get? q = some .directory)
    (hfits : (p.join name).Fits) : t.lastStep (p.join name) = .ok (q, name) := by
  obtain ⟨front, -, hpieces, hfront⟩ := pieces_join h.nonempty hname
  have hstart : t.start (p.join name) = t.start p := by
    rw [start, start, isAbsolute_join h.nonempty hname]
  have hwalk : t.walk (t.start p) front = .ok q := by
    have hw := h.walk
    rcases hfront with hfront | hfront
    · rwa [hfront] at hw
    · rw [hfront, walk_append] at hw
      obtain ⟨r, hr, hlast⟩ := except_bind_eq_ok.1 hw
      obtain ⟨-, rfl⟩ := walk_empty_eq_ok.1 hlast
      exact hr
  have hreverse : (p.join name).pieces.reverse.dropWhile (·.isEmpty) = name :: front.reverse := by
    simp [hpieces, hname.nonempty]
  rw [Tree.lastStep, checkPath_of_fits (text_join_ne h.nonempty hname) hfits]
  simp [hreverse, hstart, hwalk, hdir, bind, Except.bind, pure, Except.pure]

/-! ## Changing one place -/

/-- The tree `u` is `t` with the entry at the place. -/
structure Puts (t : Tree) (q : Place) (entry : Entry) (u : Tree) : Prop where
  workingDir : u.workingDir = t.workingDir
  get? : ∀ r, u.get? r = if r = q then some entry else t.get? r

theorem puts_put (t : Tree) (hq : q ≠ []) (entry : Entry) : t.Puts q entry (t.put q entry) :=
  ⟨rfl, fun r => get?_put t q r entry hq⟩

theorem Puts.self {entry : Entry} (h : t.Puts q entry u) : u.get? q = some entry := by
  rw [h.get?, if_pos rfl]

theorem Puts.other {entry : Entry} (h : t.Puts q entry u) (hne : r ≠ q) : u.get? r = t.get? r := by
  rw [h.get?, if_neg hne]

/-- Paths lead where they led when no directory is replaced by a file. -/
theorem Puts.leads {entry : Entry} (h : t.Puts q entry u)
    (hdir : entry = .directory ∨ t.get? q ≠ some .directory) {r : Place} (hp : t.Leads p r) :
    u.Leads p r := by
  have hkeeps (r : Place) (hr : t.get? r = some .directory) : u.get? r = some .directory := by
    by_cases heq : r = q
    · subst heq
      rcases hdir with rfl | hdir
      · exact h.self
      · exact absurd hr hdir
    · rw [h.other heq, hr]
  have hstep {a b : Place} {piece : String} (hab : t.walk a [piece] = .ok b) :
      u.walk a [piece] = .ok b := by
    rcases ha : t.get? a with _ | _ | _
    · simp [walk, ha] at hab
    · simpa only [walk, ha, hkeeps a ha] using hab
    · simp [walk, ha] at hab
  have hwalk (pieces : List String) (a b : Place) (hab : t.walk a pieces = .ok b) :
      u.walk a pieces = .ok b := by
    induction pieces generalizing a with
    | nil => exact hab
    | cons piece rest ih =>
      rw [← List.singleton_append, walk_append] at hab ⊢
      obtain ⟨c, hac, hcb⟩ := except_bind_eq_ok.1 hab
      exact except_bind_eq_ok.2 ⟨c, hstep hac, ih c hcb⟩
  refine ⟨hp.nonempty, ?_⟩
  have hstart : u.start p = t.start p := by rw [start, start, h.workingDir]
  rw [hstart]
  exact hwalk _ _ _ hp.walk

end Tree

/-! ## Edits -/

namespace Edit

/-- The change succeeds with the answer `a` and makes `u` of the tree `t`. -/
def Makes {ε α : Type} (e : Edit ε α) (t : Tree) (a : α) (u : Tree) : Prop :=
  e.run t = (.ok a, u)

variable {ε α β : Type} {t u v : Tree}

theorem makes_pure (a : α) : Makes (pure a : Edit ε α) t a t :=
  rfl

theorem makes_get : Makes (get : Edit ε Tree) t t t :=
  rfl

theorem makes_whole {f : Tree → Except ε Tree} (h : f t = .ok u) : (whole f).Makes t () u := by
  simp only [Makes, whole, ExceptT.run, h]

theorem makes_unlessThere {p : Path} (h : t.makeOne p = .ok u) :
    (makeUnlessThere p).Makes t true u := by
  simp only [Makes, makeUnlessThere, ExceptT.run, h]

theorem Makes.bind {e : Edit ε α} {f : α → Edit ε β} {a : α} {b : β} (h : e.Makes t a u)
    (hf : (f a).Makes u b v) : (e >>= f).Makes t b v := by
  change (match e.run t with | (r, w) => ExceptT.bindCont f r w) = _
  rw [Makes] at h
  rw [h]
  exact hf

theorem Makes.adapt {δ : Type} {e : Edit ε α} {f : ε → δ} {a : α} (h : e.Makes t a u) :
    Makes (ExceptT.adapt f e) t a u := by
  change (match e.run t with | (r, w) => (r.mapError f, w)) = _
  rw [Makes] at h
  rw [h]
  rfl

end Edit

open Edit

namespace Tree

variable {t : Tree} {p : Path} {q : Place} {name : String}

/-- A path finds what is in its place. -/
theorem find_of_place (h : t.place p = .ok q) : t.find p = (t.get? q).elim (.error .missing) .ok := by
  rw [Tree.find, h]
  cases hget : t.get? q <;> simp only [bind, Except.bind, hget, Option.elim]

theorem Leads.find (h : t.Leads p q) (hfits : p.Fits) {entry : Entry} (hentry : t.get? q = some entry) :
    t.find p = .ok entry := by
  rw [find_of_place (h.place hfits), hentry]
  rfl

theorem Leads.read (h : t.Leads p q) (hfits : p.Fits) {contents : Bytes}
    (hfile : t.get? q = some (.file contents)) : t.read p = .ok contents := by
  rw [Tree.read, h.find hfits hfile]
  rfl

/-- What is not there cannot be read. -/
theorem read_missing (h : ∀ q, t.place p = .ok q → t.get? q = none) :
    ∃ fault, t.read p = .error fault := by
  cases hplace : t.place p with
  | error fault =>
    refine ⟨fault, ?_⟩
    rw [Tree.read, Tree.find, hplace]
    rfl
  | ok q =>
    refine ⟨.missing, ?_⟩
    rw [Tree.read, find_of_place hplace, h q hplace]
    rfl

theorem Leads.write (h : t.Leads p q) (hname : IsName name) (hdir : t.get? q = some .directory)
    (hfits : (p.join name).Fits) (hfree : t.get? (q ++ [name]) ≠ some .directory) (context : String)
    (contents : Bytes) : ∃ u, (Edit.write context (p.join name) contents).Makes t () u ∧
      t.Puts (q ++ [name]) (.file contents) u := by
  refine ⟨_, ?_, t.puts_put (by simp) _⟩
  have hwrite : t.write (p.join name) contents = .ok (t.put (q ++ [name]) (.file contents)) := by
    have hsize := Nat.not_lt.2 (hfits.last h.nonempty hname)
    rw [Tree.write, h.lastStep hname hdir hfits]
    simp only [bind, Except.bind, hname.stays, getLast?_text_join h.nonempty hname, hsize]
    split
    · contradiction
    · rfl
  exact (makes_whole hwrite).adapt

theorem Leads.makeOne (h : t.Leads p q) (hname : IsName name) (hdir : t.get? q = some .directory)
    (hfits : (p.join name).Fits) (hfree : t.get? (q ++ [name]) = none) :
    t.makeOne (p.join name) = .ok (t.put (q ++ [name]) .directory) := by
  have hsize := Nat.not_lt.2 (hfits.last h.nonempty hname)
  rw [Tree.makeOne, h.lastStep hname hdir hfits]
  simp [bind, Except.bind, hname.stays, hsize, hfree, pure, Except.pure]

theorem Leads.present_join (h : t.Leads p q) (hname : IsName name) (hdir : t.get? q = some .directory)
    (hfits : (p.join name).Fits) :
    t.present (p.join name) = (t.get? (q ++ [name])).isSome := by
  have hleads := h.join hname hdir (hfits.last h.nonempty hname)
  rw [present, find_of_place (hleads.place hfits)]
  cases t.get? (q ++ [name]) <;> rfl

/-- A directory is made unless it is there. -/
theorem Leads.makeDir (h : t.Leads p q) (hname : IsName name) (hdir : t.get? q = some .directory)
    (hfits : (p.join name).Fits) (hfree : ∀ contents, t.get? (q ++ [name]) ≠ some (.file contents)) :
    ∃ u, (Edit.makeDir (p.join name)).Makes t () u ∧ t.Puts (q ++ [name]) .directory u := by
  have hpresent := h.present_join hname hdir hfits
  cases hget : t.get? (q ++ [name]) with
  | some entry =>
    rw [hget] at hpresent
    have hensure : (ensureDir (p.join name)).Makes t () t := by
      apply makes_get.bind
      rw [hpresent]
      exact makes_pure ()
    refine ⟨t, hensure.adapt, rfl, fun r => ?_⟩
    split
    · rename_i heq
      cases entry with
      | directory => rw [heq, hget]
      | file contents => exact absurd hget (hfree contents)
    · rfl
  | none =>
    rw [hget] at hpresent
    obtain ⟨rest, hancestors⟩ := ancestors_join h.nonempty hname
    have hone := makes_unlessThere (h.makeOne hname hdir hfits hget)
    have hensure : (ensureDir (p.join name)).Makes t () (t.put (q ++ [name]) .directory) := by
      apply makes_get.bind
      rw [if_neg (by simp [hpresent]), hancestors]
      have hnearest : (makeNearest [] (p.join name :: rest)).Makes t []
          (t.put (q ++ [name]) .directory) := hone.bind (makes_pure [])
      exact hnearest.bind (makes_pure ())
    exact ⟨_, hensure.adapt, t.puts_put (by simp) _⟩

end Tree

end SymbolAtlas.Files
