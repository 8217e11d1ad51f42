import SymbolAtlas.Proofs.Files.Extent
import SymbolAtlas.Proofs.Library.Directory

/-!
# Where a written library reaches

The parts of a package are written below a directory that is named after it, whatever the name is.
A name with slashes leads on to other directories, and one with steps to the parent can lead out of the
library.

* `stays`: pieces that do not lead out of a directory;
* `DirectoryLibrary.not_leadsOut`: the name of a package that can be read does not lead out;
* `DirectoryLibrary.create_confined`: what writing a library touches lies in it or on the way to it,
  unless a name that leads out is the reason.
-/

namespace SymbolAtlas

open Files

namespace Files

/-- From `depth` steps below a directory, the pieces lead to places in it all the way. -/
def stays : Nat → List String → Bool
  | _, [] => true
  | depth, piece :: rest =>
    if Path.isIdle piece then stays depth rest
    else if piece = ".." then depth != 0 && stays (depth - 1) rest
    else stays (depth + 1) rest

theorem stays_isPrefix {pieces front : List String} {outer inner : Place}
    (h : stays inner.length pieces = true) (hfront : front <+: pieces) :
    outer <+: follow (outer ++ inner) front := by
  induction front generalizing pieces inner with
  | nil => exact List.prefix_append outer inner
  | cons piece front ih =>
    obtain ⟨rest, rfl⟩ := hfront
    rw [List.cons_append, stays] at h
    unfold follow
    split at h
    · rw [if_pos ‹_›]
      exact ih h (List.prefix_append front rest)
    · rw [if_neg ‹_›]
      split at h
      · rw [if_pos ‹_›]
        simp only [Bool.and_eq_true, bne_iff_ne, ne_eq, List.length_eq_zero_iff] at h
        rw [List.dropLast_append_of_ne_nil h.1]
        exact ih (by simpa using h.2) (List.prefix_append front rest)
      · rw [if_neg ‹_›, List.append_assoc]
        exact ih (by simpa using h) (List.prefix_append front rest)

end Files

namespace DirectoryLibrary

open Files.Edit Files.Tree

/-- The name of the package leads out of a library, from the directory one step below it where the
packages are written. -/
def LeadsOut (package : QualName) : Prop :=
  stays 1 (Files.Path.mk (packageDirName package)).pieces = false

instance (package : QualName) : Decidable (LeadsOut package) :=
  inferInstanceAs (Decidable (_ = false))

/-- The name of a package that can be read does not lead out. -/
theorem not_leadsOut {package : QualName} (h : package.isValidPackage = true) : ¬ LeadsOut package := by
  have hname := isName_packageDirName h
  have hup : packageDirName package ≠ ".." := by
    intro hup
    have hstays := hname.stays
    rw [hup] at hstays
    cases hstays
  rw [LeadsOut, Path.pieces_name hname]
  simp [stays, hname.not_idle, hup]

variable {root : Path} {wd : Place} {payloads : List Payload}

theorem getLast?_linkdataPath (root : Path) : (linkdataPath root).text.toList.getLast? ≠ some '/' := by
  by_cases hroot : root.text = ""
  · simp [linkdataPath, Path.join, hroot]
  · exact Path.getLast?_text_join hroot isName_linkdata

/-- A package is spelled by its name from `linkdata` on. -/
theorem pieces_packagePath (root : Path) (package : QualName) (wd : Place) :
    (packagePath root package).pieces =
        (linkdataPath root).pieces ++ (Files.Path.mk (packageDirName package)).pieces ∧
      (packagePath root package).base wd = (linkdataPath root).base wd :=
  Path.pieces_append (text_linkdataPath root) (getLast?_linkdataPath root)
    (by simp [head?_packageDirName]) wd

theorem spot_linkdataPath (root : Path) (wd : Place) :
    (linkdataPath root).spot wd = root.spot wd ++ ["linkdata"] :=
  Path.spot_join root isName_linkdata wd

theorem spot_packagePath (root : Path) (package : QualName) (wd : Place) :
    (packagePath root package).spot wd =
      follow (root.spot wd ++ ["linkdata"]) (Files.Path.mk (packageDirName package)).pieces := by
  obtain ⟨hpieces, hbase⟩ := pieces_packagePath root package wd
  rw [Path.spot, hbase, hpieces, follow_append, ← Path.spot, spot_linkdataPath]

/-- The way to a package is the way to `linkdata`, and then what its name spells. -/
theorem passes_packagePath {package : QualName} {q : Place}
    (h : (packagePath root package).Passes wd q) :
    (linkdataPath root).Passes wd q ∨
      ∃ front, front <+: (Files.Path.mk (packageDirName package)).pieces ∧
        q = follow (root.spot wd ++ ["linkdata"]) front := by
  obtain ⟨hpieces, hbase⟩ := pieces_packagePath root package wd
  obtain ⟨way, hway, rfl⟩ := h
  rw [hpieces] at hway
  rw [hbase]
  rcases List.prefix_or_prefix_of_prefix hway (List.prefix_append _ _) with hshort | ⟨front, rfl⟩
  · exact .inl ⟨way, hshort, rfl⟩
  · refine .inr ⟨front, (List.prefix_append_right_inj _).1 hway, ?_⟩
    rw [follow_append, ← Path.spot, spot_linkdataPath]

/-- The way to a package that does not lead out is in the library or on the way to it. -/
theorem passes_of_not_leadsOut {package : QualName} (h : ¬ LeadsOut package) {q : Place}
    (hq : (packagePath root package).Passes wd q) : root.spot wd <+: q ∨ root.Passes wd q := by
  rcases passes_packagePath hq with hlinkdata | ⟨front, hfront, rfl⟩
  · rcases Path.passes_join isName_linkdata hlinkdata with rfl | hroot
    · exact .inl (List.prefix_append _ _)
    · exact .inr hroot
  · exact .inl (stays_isPrefix (by simpa [LeadsOut] using h) hfront)

theorem spot_partPath (root : Path) (package : QualName) (part : Nat) (wd : Place) :
    (partPath root package part).spot wd = (packagePath root package).spot wd ++ [toString part] :=
  Path.spot_join _ (isName_toString part) wd

theorem spot_partPath_of_not_leadsOut {package : QualName} (h : ¬ LeadsOut package) (part : Nat) :
    root.spot wd <+: (partPath root package part).spot wd := by
  rw [spot_partPath, spot_packagePath]
  exact (stays_isPrefix (by simpa [LeadsOut] using h) (List.prefix_refl _)).trans
    (List.prefix_append _ _)

/-! ## What is touched -/

/-- A directory can be made in the library, on the way to it, and on the way to a package whose name
leads out. -/
def MayMake (root : Path) (payloads : List Payload) (wd : Place) (q : Place) : Prop :=
  root.spot wd <+: q ∨ root.Passes wd q ∨
    ∃ p ∈ payloads, LeadsOut p.packageName ∧ (packagePath root p.packageName).Passes wd q

/-- A file can be written in the library, and as a part of a package whose name leads out. -/
def MayWrite (root : Path) (payloads : List Payload) (wd : Place) (q : Place) : Prop :=
  root.spot wd <+: q ∨
    ∃ p ∈ payloads, LeadsOut p.packageName ∧ ∃ part, q = (partPath root p.packageName part).spot wd

theorem within_writePart {x : (QualName × Nat) × Payload} {p : Payload} (hp : p ∈ payloads)
    (hpackage : x.1.1 = p.packageName) :
    (writePart root x).Within wd (MayMake root payloads wd) (MayWrite root payloads wd) := by
  obtain ⟨⟨package, index⟩, payload⟩ := x
  obtain rfl : package = p.packageName := hpackage
  unfold writePart
  dsimp only
  split
  · refine (within_makeDir fun q hq => ?_).bind fun _ => within_write _ _ ?_
    · by_cases hout : LeadsOut p.packageName
      · exact .inr (.inr ⟨p, hp, hout, hq⟩)
      · exact (passes_of_not_leadsOut hout hq).imp_right .inl
    · by_cases hout : LeadsOut p.packageName
      · exact .inr ⟨p, hp, hout, index, rfl⟩
      · exact .inl (spot_partPath_of_not_leadsOut hout index)
  · exact within_throw _

theorem within_create (root : Path) (manifest : Manifest) (header : Header) (payloads : List Payload)
    (wd : Place) : (create root manifest header payloads).Within wd (MayMake root payloads wd)
      (MayWrite root payloads wd) := by
  have hlinkdata : (makeDir (linkdataPath root)).Within wd (MayMake root payloads wd)
      (MayWrite root payloads wd) := by
    refine within_makeDir fun q hq => ?_
    rcases Path.passes_join isName_linkdata hq with rfl | hroot
    · exact .inl (List.prefix_append _ _)
    · exact .inr (.inl hroot)
  have hmanifest : (writeManifest (manifestPath root) manifest).Within wd (MayMake root payloads wd)
      (MayWrite root payloads wd) := by
    refine within_write _ _ (.inl ?_)
    rw [manifestPath, Path.spot_join root isName_manifest]
    exact List.prefix_append _ _
  have hheader (context : String) (bytes : Bytes) :
      (Edit.write context (headerPath root) bytes).Within wd (MayMake root payloads wd)
        (MayWrite root payloads wd) := by
    refine within_write _ _ (.inl ?_)
    rw [headerPath, Path.spot_join _ isName_module, spot_linkdataPath, List.append_assoc]
    exact List.prefix_append _ _
  refine hlinkdata.bind fun _ => hmanifest.adapt.bind fun _ => ?_
  dsimp only
  split
  · refine (hheader _ _).bind fun _ => .forM fun x hx => ?_
    have hnumbered : x ∈ Payload.numbered payloads := hx
    obtain ⟨hpackage, hp⟩ := Payload.packageName_of_mem_numbered hnumbered
    exact within_writePart hp hpackage
  · exact within_throw _

/-- **Writing a library stays inside it, but for packages whose names lead out.** The root spells the
place where the library is. What is different after writing is in the library, or a missing directory
on the way to it, or else a part of a package whose name leads out, or a missing directory on the way
to such a package. A package with such a name cannot be read. -/
theorem create_confined (t : Tree) (root : Path) (manifest : Manifest) (header : Header)
    (payloads : List Payload) :
    let u := (create root manifest header payloads).treeAfter t
    (∀ place, u.place root = .ok place → place = root.spot t.workingDir) ∧
      ∀ q, u.get? q = t.get? q ∨ root.spot t.workingDir <+: q ∨
        (root.Passes t.workingDir q ∧ t.get? q = none ∧ u.get? q = some .directory) ∨
        ∃ p ∈ payloads, p.packageName.isValidPackage = false ∧ LeadsOut p.packageName ∧
          ((packagePath root p.packageName).Passes t.workingDir q ∧ t.get? q = none ∧
              u.get? q = some .directory ∨
            ∃ part, q = (partPath root p.packageName part).spot t.workingDir) := by
  intro u
  have hinvalid {package : QualName} (hout : LeadsOut package) : package.isValidPackage = false :=
    Bool.eq_false_iff.2 fun hvalid => not_leadsOut hvalid hout
  obtain ⟨hworkingDir, hchanged⟩ :=
    within_create root manifest header payloads t.workingDir t rfl
  refine ⟨fun place hplace => ?_, fun q => ?_⟩
  · rw [eq_spot_of_place hplace, hworkingDir]
  · rcases hchanged q with hsame | hwritten | ⟨hmade, hnone, hdir⟩
    · exact .inl hsame
    · rcases hwritten with hinside | ⟨p, hp, hout, hpart⟩
      · exact .inr (.inl hinside)
      · exact .inr (.inr (.inr ⟨p, hp, hinvalid hout, hout, .inr hpart⟩))
    · rcases hmade with hinside | hroot | ⟨p, hp, hout, hpackage⟩
      · exact .inr (.inl hinside)
      · exact .inr (.inr (.inl ⟨hroot, hnone, hdir⟩))
      · exact .inr (.inr (.inr ⟨p, hp, hinvalid hout, hout, .inl ⟨hpackage, hnone, hdir⟩⟩))

def stray : Payload :=
  ⟨"x/../../../out", .current, [], [], []⟩

/-- It is written beside the library. -/
theorem create_stray :
    let t := Tree.emptyAt ["work"]
    let u := (create ⟨"lib"⟩ .empty ⟨"lib", []⟩ [stray]).treeAfter t
    u.place ⟨"lib"⟩ = .ok ["work", "lib"] ∧ t.get? ["work", "out"] = none ∧
      u.get? ["work", "out"] = some .directory ∧
      u.get? ["work", "out", "0"] = some (.file stray.write) := by
  decide +kernel

end DirectoryLibrary

end SymbolAtlas
