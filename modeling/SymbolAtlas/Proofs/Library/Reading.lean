import SymbolAtlas.Proofs.Library.Confinement
import SymbolAtlas.Proofs.Symbols.PackageNames

namespace SymbolAtlas

open Files

namespace Files.Tree

variable {t u : Tree} {p : Path} {q : Place}

theorem walk_congr {pieces : List String}
    (h : ∀ front, front <+: pieces → u.get? (follow q front) = t.get? (follow q front)) :
    u.walk q pieces = t.walk q pieces := by
  induction pieces generalizing q with
  | nil => rfl
  | cons piece rest ih =>
    have hself : u.get? q = t.get? q := h [] List.nil_prefix
    have hrest {r : Place} (hstep : ∀ front, follow q (piece :: front) = follow r front) :
        u.walk r rest = t.walk r rest := by
      refine ih fun front hfront => ?_
      rw [← hstep]
      exact h _ ((List.prefix_cons_inj piece).2 hfront)
    rw [walk, walk, hself]
    by_cases hidle : Path.isIdle piece = true
    · simp only [if_pos hidle, hrest fun front => by rw [follow, if_pos hidle]]
    · by_cases hup : piece = ".."
      · simp only [if_neg hidle, if_pos hup,
          hrest fun front => by rw [follow, if_neg hidle, if_pos hup]]
      · simp only [if_neg hidle, if_neg hup,
          hrest fun front => by rw [follow, if_neg hidle, if_neg hup]]

/-- The trees hold the same on the way of a path. -/
structure AlikeOn (t u : Tree) (p : Path) : Prop where
  workingDir : u.workingDir = t.workingDir
  same : ∀ q, p.Passes t.workingDir q → u.get? q = t.get? q

/-- Reading a file looks at the way of its path, and at nothing else. -/
theorem read_congr (h : t.AlikeOn u p) : u.read p = t.read p := by
  have hplace : u.place p = t.place p := by
    rw [place, place, start, h.workingDir, ← start]
    exact congrArg _ (funext fun _ => walk_congr fun front hfront => h.same _ ⟨front, hfront, rfl⟩)
  have hfind : u.find p = t.find p := by
    rw [find, find, hplace]
    cases hq : t.place p with
    | error => rfl
    | ok q =>
      have hspot : u.get? q = t.get? q :=
        h.same q ⟨p.pieces, List.prefix_refl _, eq_spot_of_place hq⟩
      simp only [bind, Except.bind, hspot]
  rw [read, read, hfind]

/-- A file is read from the place that its path spells. -/
theorem read_eq_ok {bytes : Bytes} : t.read p = .ok bytes ↔
    t.place p = .ok (p.spot t.workingDir) ∧ t.get? (p.spot t.workingDir) = some (.file bytes) := by
  constructor
  · intro h
    obtain ⟨entry, hfind, h⟩ := except_bind_eq_ok.1 h
    obtain ⟨q, hplace, hentry⟩ := except_bind_eq_ok.1 hfind
    obtain rfl := eq_spot_of_place hplace
    split at hentry
    · obtain rfl := Except.ok.inj hentry
      split at h
      · obtain rfl := Except.ok.inj h
        exact ⟨hplace, ‹_›⟩
      · cases h
    · cases hentry
  · rintro ⟨hplace, hfile⟩
    simp only [read, find, hplace, bind, Except.bind, hfile]

end Files.Tree

namespace DirectoryLibrary

variable {t u : Tree} {root : Path} {package : QualName} {part : Nat} {wd : Place}

/-- The parts of a package stand in a directory of their own, and not further away. -/
theorem spot_partPath_of_valid (h : package.isValidPackage = true) :
    (partPath root package part).spot wd = partPlace (root.spot wd) (package, part) := by
  rw [spot_partPath, packagePath, Path.spot_join _ (isName_packageDirName h), spot_linkdataPath]
  rfl

/-- The way to a part is the way to the library, and three steps more. -/
theorem passes_partPath (h : package.isValidPackage = true) {q : Place}
    (hq : (partPath root package part).Passes wd q) :
    root.Passes wd q ∨ q = linkdataPlace (root.spot wd) ∨ q = packagePlace (root.spot wd) package ∨
      q = partPlace (root.spot wd) (package, part) := by
  rcases Path.passes_join (isName_toString part) hq with rfl | hq
  · exact .inr (.inr (.inr (spot_partPath_of_valid h ▸ (spot_partPath ..).symm)))
  rcases Path.passes_join (isName_packageDirName h) hq with rfl | hq
  · refine .inr (.inr (.inl ?_))
    rw [spot_linkdataPath]
    rfl
  rcases Path.passes_join isName_linkdata hq with rfl | hq
  · exact .inr (.inl rfl)
  · exact .inl hq

/-- No part of the package is read from a library at this path: the package has no name of one, or
the path of the part would hold the character that no path can hold. -/
def Refuses (root : Path) (package : QualName) : Prop :=
  package.isValidPackage = false ∨ '\x00' ∈ root.text.toList ∨ '\x00' ∈ package.text.toList

/-- The part is read from the file at a place below the library, and reading it looks at no other
file, and at no directory but those on the way to the file. -/
structure ReadsFile (root : Path) (package : QualName) (part : Nat) (file : Place → Place) : Prop where
  accepts : ∀ t fault, readPart t root package part = .error fault → fault.kind ≠ .invalidInput
  reads : ∀ t bytes, readPart t root package part = .ok bytes ↔
    t.place (partPath root package part) = .ok (file (root.spot t.workingDir)) ∧
      t.get? (file (root.spot t.workingDir)) = some (.file bytes)
  looksAt : ∀ t u : Tree, u.workingDir = t.workingDir →
    (∀ q, root.Passes t.workingDir q ∨ root.spot t.workingDir <+: q ∧
      q <+: file (root.spot t.workingDir) → u.get? q = t.get? q) →
    readPart u root package part = readPart t root package part

theorem readsFile_of_not_refuses (h : ¬ Refuses root package) (part : Nat) :
    ReadsFile root package part fun place => partPlace place (package, part) := by
  simp only [Refuses, not_or, Bool.not_eq_false] at h
  obtain ⟨hvalid, hroot, hpackage⟩ := h
  have hread (t : Tree) : readPart t root package part = t.read (partPath root package part) :=
    if_pos hvalid
  refine ⟨fun t fault herror hkind => ?_, fun t bytes => ?_, fun t u hwd hsame => ?_⟩
  · rcases (readPart_invalid_iff hroot).1 ⟨fault, herror, hkind⟩ with hinvalid | hnul
    · cases hvalid.symm.trans hinvalid
    · exact hpackage hnul
  · rw [hread, Tree.read_eq_ok, spot_partPath_of_valid hvalid]
  · rw [hread, hread]
    refine Tree.read_congr ⟨hwd, fun q hq => hsame q ?_⟩
    rcases passes_partPath hvalid hq with hway | rfl | rfl | rfl
    · exact .inl hway
    · exact .inr ⟨List.prefix_append _ _, by simp [linkdataPlace, partPlace, packagePlace]⟩
    · exact .inr ⟨by simp [linkdataPlace, packagePlace], List.prefix_append _ _⟩
    · exact .inr ⟨by simp [linkdataPlace, partPlace, packagePlace], List.prefix_refl _⟩

theorem refused (h : Refuses root package) (part : Nat) :
    ∃ fault, fault.kind = .invalidInput ∧ ∀ t, readPart t root package part = .error fault := by
  by_cases hvalid : package.isValidPackage = true
  · have hnul : '\x00' ∈ (partPath root package part).text.toList :=
      (nul_mem_partPath hvalid).2 (h.resolve_left (by simp [hvalid]))
    refine ⟨.nulInPath, rfl, fun t => ?_⟩
    rw [readPart, if_pos hvalid, Tree.read, Tree.find, Tree.place, Tree.checkPath, if_pos (by simpa)]
    rfl
  · exact ⟨_, rfl, fun t => if_neg hvalid⟩

/-- **A part is refused, or read from its own file of the library.** Parts that are refused are
refused whatever the files are. Another part is read from the file that is named by its number, in
the directory of its package; both names are ordinary ones, so they lead neither out of `linkdata`
nor to the file of another part. -/
theorem readPart_confined (root : Path) (package : QualName) (part : Nat) :
    (Refuses root package ∧
      ∃ fault, fault.kind = .invalidInput ∧ ∀ t, readPart t root package part = .error fault) ∨
    (¬ Refuses root package ∧
      Path.IsName ("package_" ++ package.text) ∧ Path.IsName (toString part) ∧
      ReadsFile root package part
        (fun place => place ++ ["linkdata", "package_" ++ package.text, toString part]) ∧
      (∀ (t : Tree) (place : Place), t.place root = .ok place → place = root.spot t.workingDir) ∧
      ∀ other n wd, ¬ Refuses root other →
        (partPath root other n).spot wd = (partPath root package part).spot wd →
          other = package ∧ n = part) := by
  by_cases hrefuses : Refuses root package
  · exact .inl ⟨hrefuses, refused hrefuses part⟩
  have hvalid {a : QualName} (h : ¬ Refuses root a) : a.isValidPackage = true :=
    Bool.not_eq_false _ ▸ fun hinvalid => h (.inl hinvalid)
  refine .inr ⟨hrefuses, isName_packageDirName (hvalid hrefuses), isName_toString part, ?_,
    fun t place => Tree.eq_spot_of_place, fun other n wd hother hsame => ?_⟩
  · have hfile : (fun place => place ++ ["linkdata", "package_" ++ package.text, toString part]) =
        fun place => partPlace place (package, part) :=
      funext fun place => by simp [partPlace, packagePlace, linkdataPlace, packageDirName]
    rw [hfile]
    exact readsFile_of_not_refuses hrefuses part
  · rw [spot_partPath_of_valid (hvalid hother), spot_partPath_of_valid (hvalid hrefuses),
      partPlace_inj] at hsame
    exact Prod.mk.inj hsame

/-- What `stray` writes beside the library is not read from there. -/
example : Refuses ⟨"lib"⟩ stray.packageName := .inl (by decide)

end DirectoryLibrary

end SymbolAtlas
