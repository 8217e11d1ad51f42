import Mathlib.Data.List.Forall2
import SymbolAtlas.Proofs.Symbols.Provenance
import SymbolAtlas.Proofs.Symbols.Unpacking

/-!
# Package names that are refused

A header is checked as it is written, and the fragments of a module are named by what white space at
the ends leaves of it. So a name can pass in the header and be refused when the part is asked for.

* `Tree.read_invalid_iff`: which paths are refused whatever the tree holds;
* `DirectoryLibrary.readPart_invalid_iff`: which parts of packages are;
* `Module.load_standsFor`: which names in a header lead to one.
-/

namespace SymbolAtlas

open Query Files

namespace Files

namespace Tree

variable {t : Tree} {p : Path} {q : Place} {fault : Fault}

theorem kind_of_walk_error {pieces : List String} (h : t.walk q pieces = .error fault) :
    fault.kind ≠ .invalidInput := by
  induction pieces generalizing q with
  | nil => cases h
  | cons piece rest ih =>
    unfold walk at h
    split at h
    · cases h
      decide
    · cases h
      decide
    · split at h
      · exact ih h
      · split at h
        · exact ih h
        · split at h
          · cases h
            decide
          · exact ih h

theorem read_eq_error (h : t.read p = .error fault) :
    t.place p = .error fault ∨ fault = .missing ∨ fault = .isDirectory := by
  rcases except_bind_eq_error.1 h with h | ⟨entry, -, h⟩
  · rcases except_bind_eq_error.1 h with h | ⟨place, -, h⟩
    · exact .inl h
    · split at h
      · cases h
      · exact .inr (.inl (Except.error.inj h).symm)
  · split at h
    · cases h
    · exact .inr (.inr (Except.error.inj h).symm)

/-- Only the character that no path can hold is refused as such. -/
theorem read_invalid_iff : (∃ fault, t.read p = .error fault ∧ fault.kind = .invalidInput) ↔
    '\x00' ∈ p.text.toList := by
  constructor
  · rintro ⟨fault, hread, hkind⟩
    rcases read_eq_error hread with hplace | rfl | rfl
    · rcases except_bind_eq_error.1 hplace with hcheck | ⟨_, -, hwalk⟩
      · unfold checkPath at hcheck
        split at hcheck
        · rename_i hnul
          simpa using hnul
        · split at hcheck
          · cases hcheck
            cases hkind
          · split at hcheck
            · cases hcheck
              cases hkind
            · cases hcheck
      · exact absurd hkind (kind_of_walk_error hwalk)
    · cases hkind
    · cases hkind
  · intro hnul
    have hcheck : checkPath p = .error .nulInPath := by simp [checkPath, hnul]
    refine ⟨.nulInPath, ?_, rfl⟩
    rw [read, find, place, hcheck]
    rfl

end Tree

theorem Path.nul_mem_join {p : Path} {name : String} (hp : p.text ≠ "") (hname : IsName name) :
    '\x00' ∈ (p.join name).text.toList ↔ '\x00' ∈ p.text.toList ∨ '\x00' ∈ name.toList := by
  rcases Path.text_join hp hname with ⟨-, htext⟩ | htext <;> simp [htext]

end Files

namespace DirectoryLibrary

variable {t : Tree} {root : Path} {package : QualName} {part : Nat}

theorem nul_mem_linkdataPath :
    '\x00' ∈ (linkdataPath root).text.toList ↔ '\x00' ∈ root.text.toList := by
  by_cases hroot : root.text = ""
  · simp [linkdataPath, Path.join, hroot]
  · rw [linkdataPath, Path.nul_mem_join hroot isName_linkdata]
    simp

theorem nul_mem_partPath (h : package.isValidPackage = true) :
    '\x00' ∈ (partPath root package part).text.toList ↔
      '\x00' ∈ root.text.toList ∨ '\x00' ∈ package.text.toList := by
  have hname := isName_packageDirName h
  have hpart : '\x00' ∉ (toString part).toList := not_mem_toString (by decide) part
  rw [partPath, packagePath, Path.nul_mem_join (Path.text_join_ne (text_linkdataPath root) hname)
    (isName_toString part), or_iff_left hpart, Path.nul_mem_join (text_linkdataPath root) hname,
    nul_mem_linkdataPath]
  simp [packageDirName]

/-- A part is refused when its package has no name of one, or a name that no path can hold. -/
theorem readPart_invalid_iff (hroot : '\x00' ∉ root.text.toList) :
    (∃ fault, readPart t root package part = .error fault ∧ fault.kind = .invalidInput) ↔
      package.isValidPackage = false ∨ '\x00' ∈ package.text.toList := by
  unfold readPart
  cases hvalid : package.isValidPackage with
  | false => exact iff_of_true ⟨_, rfl, rfl⟩ (.inl rfl)
  | true => simp [Tree.read_invalid_iff, nul_mem_partPath hvalid, hroot]

/-- The path of a library whose header is read can be looked up. -/
theorem nul_not_mem_of_read {bytes : Bytes} (h : t.read (headerPath root) = .ok bytes) :
    '\x00' ∉ root.text.toList := by
  intro hnul
  have hheader : '\x00' ∈ (headerPath root).text.toList := by
    rw [headerPath, Path.nul_mem_join (text_linkdataPath root) isName_module,
      nul_mem_linkdataPath]
    exact .inl hnul
  obtain ⟨fault, hfault, -⟩ := Tree.read_invalid_iff.2 hheader
  cases h.symm.trans hfault

end DirectoryLibrary

/-- The fragment stands for the part that a header lists under a name: what its package is, when that
is the name of a package, and when a directory refuses to read it. -/
structure StoredFragment.StandsFor (f : StoredFragment) (name : String) : Prop where
  package : f.package = QualName.ofText name
  valid : f.package.isValidPackage = true ↔ ¬ QualName.BlankEnd name.toList
  refused : ∀ (d : DirectoryLibrary) (t : Tree), f.library = d.toLibrary t →
    ((∃ fault, f.library.payload f.package f.part = .error fault ∧ fault.kind = .invalidInput) ↔
      QualName.BlankEnd name.toList ∨ '\x00' ∈ name.toList)

theorem Text.mem_trim_iff {s : List Char} {c : Char} (hc : isBlank c = false) :
    c ∈ trim s ↔ c ∈ s := by
  refine ⟨mem_of_mem_trim, fun h => ?_⟩
  obtain ⟨front, back, hs, hfront, hback⟩ := exists_trim_append s
  rw [hs] at h
  simp only [List.mem_append] at h
  rcases h with (h | h) | h
  · cases hc.symm.trans (hfront c h)
  · exact h
  · cases hc.symm.trans (hback c h)

/-- What a valid header lists stands in the library for its names. -/
theorem Library.standsFor {l : Library} {bytes : Bytes} {name : String} {f : StoredFragment}
    (hbytes : l.header = .ok bytes) (hname : QualName.validPackage name = true) (hf : f.library = l)
    (hpackage : f.package = QualName.ofText name) : f.StandsFor name where
  package := hpackage
  valid := hpackage ▸ QualName.isValidPackage_ofText hname
  refused := by
    intro d t hd
    have hheader : t.read (DirectoryLibrary.headerPath d.root) = .ok bytes := by
      rw [← hf, hd] at hbytes
      exact hbytes
    have hnul : '\x00' ∈ (QualName.ofText name).text.toList ↔ '\x00' ∈ name.toList := by
      rw [QualName.ofText, QualName.text_ofChars, String.toList_ofList,
        Text.mem_trim_iff (by decide)]
    have hvalid := QualName.isValidPackage_ofText hname
    rw [hd, hpackage]
    refine (DirectoryLibrary.readPart_invalid_iff
      (DirectoryLibrary.nul_not_mem_of_read hheader)).trans ?_
    rw [hnul, ← Bool.not_eq_true, hvalid, not_not]

/-- **A name in a header is refused exactly when white space hides an empty segment at an end of it,
or when no path can hold it.** The fragments of a loaded module stand for the names in the header, in
their order. -/
theorem Module.load_standsFor {S : Session} (hS : S.Reachable) {l : Library} {options : LoadOptions}
    {m : Module} {s : Store} (hload : (Module.load l options).runOn S.store = (.ok m, s)) :
    ∃ c bytes header, m.services? s = some c ∧ l.header = .ok bytes ∧
      Header.parse l.name bytes = .ok header ∧
      List.Forall₂ (fun name f => f.library = l ∧ StoredFragment.StandsFor f name) header.packages
        c.provider.storedFragments := by
  obtain ⟨c, hc, hgives⟩ := Module.load_presents hS.sound.store hload
  obtain ⟨bytes, header, reports, hbytes, hparse, hstored⟩ := hgives.lists
  refine ⟨c, bytes, header, hc, hbytes, hparse, ?_⟩
  have hvalid : header.Valid := by
    obtain ⟨-, -, -, hvalid⟩ := Header.decode_eq_ok.1 (except_mapError_eq_ok.1 hparse)
    exact hvalid
  have hpackages : List.Forall₂ Eq (header.packages.map QualName.ofText)
      (c.provider.storedFragments.map (·.package)) := by
    have hmap := congrArg (List.map (·.package)) hstored
    rw [l.map_package_storedOf, List.map_map] at hmap
    rw [List.forall₂_eq_eq_eq]
    exact hmap.symm
  obtain ⟨hlength, hzip⟩ :=
    List.forall₂_iff_zip.1 (List.forall₂_map_left_iff.1 (List.forall₂_map_right_iff.1 hpackages))
  refine List.forall₂_iff_zip.2 ⟨hlength, fun {name f} hmem => ?_⟩
  obtain ⟨hname, hf⟩ := List.of_mem_zip hmem
  have hl := hgives.library hf
  exact ⟨hl, Library.standsFor hbytes (hvalid.packages name hname) hl (hzip hmem).symm⟩

/-- A header with a name that ends in a dot and a space. -/
def Header.dotted : Header :=
  ⟨"lib", ["a. ", " b"]⟩

/-- It is accepted, and not all of its names are names of packages without their white space. -/
theorem Header.parse_dotted : ∃ header, Header.parse "lib" Header.dotted.file = .ok header ∧
    ∃ name ∈ header.packages, (QualName.ofText name).isValidPackage = false :=
  ⟨.dotted, by decide +kernel, "a. ", by decide, by decide⟩

def DirectoryLibrary.dotted : Library :=
  toLibrary ⟨⟨[(["lib"], .directory), (["lib", "linkdata"], .directory),
    (["lib", "linkdata", "module"], .file Header.dotted.file)]⟩, []⟩ ⟨⟨"lib"⟩, "lib", .empty⟩

/-- It is loaded, and refuses its first package, but not the second one. -/
theorem Module.load_standsFor_dotted :
    ∃ m s c f g, (Module.load DirectoryLibrary.dotted {}).runOn {} = (.ok m, s) ∧
      m.services? s = some c ∧ c.provider.storedFragments = [f, g] ∧
      (∃ fault, f.library.payload f.package f.part = .error fault ∧ fault.kind = .invalidInput) ∧
      ¬ ∃ fault, g.library.payload g.package g.part = .error fault ∧ fault.kind = .invalidInput := by
  have hok : ((Module.load DirectoryLibrary.dotted {}).runOn {}).1.toBool = true := by decide +kernel
  rcases hrun : (Module.load DirectoryLibrary.dotted {}).runOn {} with ⟨_ | m, s⟩
  · rw [hrun] at hok
    cases hok
  obtain ⟨c, bytes, header, hc, hbytes, hparse, hstands⟩ := load_standsFor (S := {}) .refl hrun
  have hbytes' : DirectoryLibrary.dotted.header = .ok Header.dotted.file := by decide +kernel
  have hparse' : Header.parse DirectoryLibrary.dotted.name Header.dotted.file = .ok .dotted := by
    decide +kernel
  obtain rfl := Except.ok.inj (hbytes'.symm.trans hbytes)
  obtain rfl := Except.ok.inj (hparse'.symm.trans hparse)
  obtain ⟨f, rest, ⟨hf, hstandsFor⟩, hrest, hfragments⟩ := List.forall₂_cons_left_iff.1 hstands
  obtain ⟨g, rest, ⟨hg, hstandsFor'⟩, hnil, rfl⟩ := List.forall₂_cons_left_iff.1 hrest
  obtain rfl := List.forall₂_nil_left_iff.1 hnil
  refine ⟨m, s, c, f, g, rfl, hc, hfragments, (hstandsFor.refused _ _ hf).2 ?_,
    mt (hstandsFor'.refused _ _ hg).1 ?_⟩
  · exact .inl ⟨[' '], ['a'], List.forall_mem_singleton.2 (by decide), .inr (by decide)⟩
  · rintro (⟨blank, rest, -, hends⟩ | hnul)
    · have hdot : '.' ∈ " b".toList := by rcases hends with hends | hends <;> simp [hends]
      exact absurd hdot (by decide)
    · exact absurd hnul (by decide)

end SymbolAtlas
