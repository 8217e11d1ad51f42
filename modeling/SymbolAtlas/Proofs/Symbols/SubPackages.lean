import Mathlib.Algebra.Order.BigOperators.Group.List
import Mathlib.Algebra.Order.Group.Nat
import SymbolAtlas.Proofs.Name.Segments
import SymbolAtlas.Proofs.Symbols.Session
import SymbolAtlas.Proofs.Symbols.Unpacking

namespace SymbolAtlas

open Query QualName

theorem nodup_eraseDups {α : Type} [BEq α] [LawfulBEq α] (items : List α) : items.eraseDups.Nodup := by
  generalize hlength : items.length = k
  induction k using Nat.strongRecOn generalizing items with
  | ind k ih =>
    cases items with
    | nil => simp
    | cons a rest =>
      have hshorter : (rest.filter fun b => !b == a).length < k :=
        hlength ▸ Nat.lt_succ_of_le (List.length_filter_le ..)
      rw [List.eraseDups_cons]
      exact List.nodup_cons.2 ⟨by simp [List.mem_eraseDups], ih _ hshorter _ rfl⟩

/-- The direct sub-package on the way to a name is the one below the package at or below which the
name lies. -/
theorem QualName.directChild?_eq_some {package a d : QualName} (ha : a.IsDotted) :
    package.directChild? a = some d ↔ d ≠ root ∧ d.parent = package ∧ a.startsWith d = true := by
  unfold directChild?
  constructor
  · intro h
    split at h
    · cases h
    · rename_i hbelow
      obtain ⟨-, hstarts⟩ : a ≠ package ∧ a.startsWith package = true := by simpa using hbelow
      obtain ⟨n, hnext, rfl⟩ := Option.map_eq_some_iff.1 h
      have hn : n.IsPlain := ha.isPlain (List.mem_of_getElem? hnext)
      have hpackage : package.IsDotted := (ha.startsWith_iff.1 hstarts).1
      exact ⟨child_ne_root hn, parent_child hn.isSegment,
        (ha.startsWith_child_iff hpackage hn).2 ⟨hstarts, hnext⟩⟩
  · rintro ⟨hroot, rfl, hstarts⟩
    obtain ⟨hparent, hn, hchild⟩ := (ha.startsWith_iff.1 hstarts).1.exists_child hroot
    rw [hchild] at hstarts
    obtain ⟨habove, hnext⟩ := (ha.startsWith_child_iff hparent hn).1 hstarts
    have hne : a ≠ d.parent := by
      rintro rfl
      simp at hnext
    rw [if_neg (by simpa using ⟨hne, habove⟩), hnext, Option.map_some, ← hchild]

namespace Provider

variable {p : Provider} {package d : QualName} {n : Nat}

/-- A fragment lies at or below the package. -/
def Reaches (p : Provider) (d : QualName) : Prop :=
  ∃ f ∈ p.fragments, f.package.startsWith d = true

/-- The fragments lie in packages whose names have segments, none with white space. -/
def Dotted (p : Provider) : Prop :=
  ∀ f ∈ p.fragments, f.package.IsDotted

theorem nodup_subPackages (p : Provider) (package : QualName) : (p.subPackages package).Nodup :=
  nodup_eraseDups _

/-- Below a package are listed the names that it encloses and that lead to fragments. -/
theorem mem_subPackages (hp : p.Dotted) :
    d ∈ p.subPackages package ↔ d ≠ root ∧ d.parent = package ∧ p.Reaches d := by
  have hlisted : d ∈ p.subPackages package ↔
      ∃ f ∈ p.fragments, package.directChild? f.package = some d := by
    simp only [subPackages, subPackagesIn, fragments, List.mem_eraseDups, List.mem_flatMap,
      List.mem_filterMap, List.mem_flatten]
    grind
  rw [hlisted]
  constructor
  · rintro ⟨f, hf, hchild⟩
    obtain ⟨hroot, hparent, hstarts⟩ := (directChild?_eq_some (hp f hf)).1 hchild
    exact ⟨hroot, hparent, f, hf, hstarts⟩
  · rintro ⟨hroot, hparent, f, hf, hstarts⟩
    exact ⟨f, hf, (directChild?_eq_some (hp f hf)).2 ⟨hroot, hparent, hstarts⟩⟩

/-! ## Walking from the root -/

/-- The packages that are a number of steps below the root. -/
def packagesAt (p : Provider) : Nat → List QualName
  | 0 => [root]
  | n + 1 => (p.packagesAt n).flatMap p.subPackages

theorem Reaches.isDotted (hp : p.Dotted) (h : p.Reaches d) : d.IsDotted := by
  obtain ⟨f, hf, hstarts⟩ := h
  exact ((hp f hf).startsWith_iff.1 hstarts).1

/-- What encloses a package that leads to fragments leads to them as well, by one step less. -/
theorem Reaches.parent (hp : p.Dotted) (h : p.Reaches d) (hroot : d ≠ root) :
    p.Reaches d.parent ∧ d.segments.length = d.parent.segments.length + 1 := by
  obtain ⟨hparent, hn, hchild⟩ := (h.isDotted hp).exists_child hroot
  obtain ⟨f, hf, hstarts⟩ := h
  rw [hchild] at hstarts
  refine ⟨⟨f, hf, (((hp f hf).startsWith_child_iff hparent hn).1 hstarts).1⟩, ?_⟩
  have hsegments := congrArg List.length (segments_child (p := d.parent) hn)
  rwa [← hchild, List.length_append] at hsegments

/-- As many steps below the root as it has segments, the walk comes to a package that leads to
fragments. -/
theorem mem_packagesAt (hp : p.Dotted) :
    d ∈ p.packagesAt n ↔ d.segments.length = n ∧ (d = root ∨ p.Reaches d) := by
  induction n generalizing d with
  | zero =>
    rw [packagesAt, List.mem_singleton]
    constructor
    · rintro rfl
      exact ⟨rfl, .inl rfl⟩
    · rintro ⟨hlength, rfl | hreach⟩
      · rfl
      · exact (hreach.isDotted hp).segments_inj isDotted_root (List.length_eq_zero_iff.1 hlength)
  | succ n ih =>
    simp only [packagesAt, List.mem_flatMap, mem_subPackages hp, ih]
    constructor
    · rintro ⟨q, ⟨hlength, -⟩, hroot, rfl, hreach⟩
      exact ⟨by rw [(hreach.parent hp hroot).2, hlength], .inr hreach⟩
    · rintro ⟨hlength, rfl | hreach⟩
      · cases hlength
      · have hroot : d ≠ root := by
          rintro rfl
          cases hlength
        obtain ⟨hparent, hstep⟩ := hreach.parent hp hroot
        exact ⟨d.parent, ⟨by omega, .inr hparent⟩, hroot, rfl, hreach⟩

/-- The walk ends: no package has more segments than the fragment that it leads to. -/
theorem exists_packagesAt_eq_nil (hp : p.Dotted) : ∃ depth, ∀ n, depth ≤ n → p.packagesAt n = [] := by
  refine ⟨(p.fragments.map (·.package.segments.length)).sum + 1, fun n hn => ?_⟩
  refine List.eq_nil_iff_forall_not_mem.2 fun d hd => ?_
  obtain ⟨hlength, rfl | ⟨f, hf, hstarts⟩⟩ := (mem_packagesAt hp).1 hd
  · rw [segments_root] at hlength
    simp at hlength
    omega
  · have hshort := ((hp f hf).startsWith_iff.1 hstarts).2.length_le
    have hbound : f.package.segments.length ≤ (p.fragments.map (·.package.segments.length)).sum :=
      List.le_sum_of_mem (List.mem_map_of_mem hf)
    omega

theorem Reaches.of_mem {f : Fragment} (hp : p.Dotted) (hf : f ∈ p.fragments) : p.Reaches f.package :=
  ⟨f, hf, (hp f hf).startsWith_iff.2 ⟨hp f hf, List.prefix_refl _⟩⟩

end Provider

namespace Module

variable {m : Module} {s : Store} {c : Services}

/-- What a module lists a number of steps below the root. -/
def packagesAt (m : Module) : Nat → Query (List QualName)
  | 0 => return [root]
  | n + 1 => do return (← (← m.packagesAt n).mapM m.subPackages).flatten

theorem runOn_packageNames (hm : m.services? s = some c) :
    m.packageNames.runOn s = (.ok c.provider.packageNames, s) := by
  rw [packageNames, runOn_bind_ok (runOn_provider hm)]
  rfl

theorem runOn_subPackages (hm : m.services? s = some c) (package : QualName) :
    (m.subPackages package).runOn s = (.ok (c.provider.subPackages package), s) := by
  rw [subPackages, runOn_bind_ok (runOn_provider hm)]
  rfl

theorem runOn_mapM_subPackages (hm : m.services? s = some c) (packages : List QualName) :
    (packages.mapM m.subPackages).runOn s = (.ok (packages.map c.provider.subPackages), s) := by
  induction packages with
  | nil => rfl
  | cons package rest ih =>
    rw [List.mapM_cons, runOn_bind_ok (runOn_subPackages hm package), runOn_bind_ok ih]
    rfl

theorem runOn_packagesAt (hm : m.services? s = some c) (n : Nat) :
    (m.packagesAt n).runOn s = (.ok (c.provider.packagesAt n), s) := by
  induction n with
  | zero => rfl
  | succ n ih =>
    rw [packagesAt, runOn_bind_ok ih, runOn_bind_ok (runOn_mapM_subPackages hm _),
      Provider.packagesAt, List.flatMap_def]
    rfl

/-- **The packages of a module are a tree.** Below each package are listed, without repetition, the
names that it encloses and at or below which fragments lie. Going down from the root through these
lists comes to an end, and leads to every package. -/
theorem subPackages_tree (hm : m.services? s = some c)
    (hvalid : ∀ f ∈ c.provider.fragments, f.package.isValidPackage = true)
    (hblank : ∀ f ∈ c.provider.fragments, ∀ x ∈ f.package.chars, Text.isBlank x = false) :
    (∀ package, ∃ names, (m.subPackages package).runOn s = (.ok names, s) ∧ names.Nodup ∧
      ∀ d, d ∈ names ↔ d ≠ root ∧ d.parent = package ∧
        ∃ f ∈ c.provider.fragments, f.package.startsWith d = true) ∧
    ∃ levels : Nat → List QualName, (∀ n, (m.packagesAt n).runOn s = (.ok (levels n), s)) ∧
      (∃ depth, ∀ n, depth ≤ n → levels n = []) ∧
      (∀ f ∈ c.provider.fragments, ∀ d, f.package.startsWith d = true → ∃ n, d ∈ levels n) ∧
      ∃ all, m.packageNames.runOn s = (.ok all, s) ∧ ∀ d ∈ all, ∃ n, d ∈ levels n := by
  have hp : c.provider.Dotted := fun f hf => .of_isValidPackage (hvalid f hf) (hblank f hf)
  have hreach {d : QualName} (h : c.provider.Reaches d) : ∃ n, d ∈ c.provider.packagesAt n :=
    ⟨_, (Provider.mem_packagesAt hp).2 ⟨rfl, .inr h⟩⟩
  refine ⟨fun package => ⟨_, runOn_subPackages hm package, Provider.nodup_subPackages _ _,
    fun d => Provider.mem_subPackages hp⟩, _, runOn_packagesAt hm,
    Provider.exists_packagesAt_eq_nil hp, fun f hf d hd => hreach ⟨f, hf, hd⟩, _,
    runOn_packageNames hm, fun d hd => ?_⟩
  obtain ⟨f, hf, rfl⟩ := List.mem_map.1 (List.mem_eraseDups.1 hd)
  exact hreach (.of_mem hp hf)

/-- Packages two segments apart, and one whose text only begins like theirs. -/
def nestedPackages : List QualName :=
  ["media.audio.codec", "mediator", "media"].map ofText

/-- A library with these packages. -/
def nested : Library :=
  MemoryLibrary.toLibrary
    ⟨"lib", .empty, (Header.mk "lib" (nestedPackages.map (·.text))).file, []⟩

/-- The package between them is listed and reached though no fragment lies in it, and the one that only
begins like them is not below them. -/
theorem subPackages_tree_nested :
    ∃ m s c, (load nested {}).runOn {} = (.ok m, s) ∧ m.services? s = some c ∧
      (∀ f ∈ c.provider.fragments, f.package.isValidPackage = true) ∧
      (∀ f ∈ c.provider.fragments, ∀ x ∈ f.package.chars, Text.isBlank x = false) ∧
      (∃ names, (m.subPackages (ofText "media")).runOn s = (.ok names, s) ∧
        ofText "media.audio" ∈ names ∧ ofText "mediator" ∉ names) ∧
      ∃ n names, (m.packagesAt n).runOn s = (.ok names, s) ∧ ofText "media.audio" ∈ names := by
  have hrun : (match (load nested {}).runOn {} with
      | (.ok m, s) => (m.services? s).map (·.provider.fragments.map Fragment.package)
      | (.error _, _) => none) =
        some nestedPackages := by
    decide +kernel
  have hplain : nestedPackages.all (fun a => a.chars.all (!Text.isBlank ·)) = true := by decide +kernel
  split at hrun
  · rename_i m s hload
    obtain ⟨c, hc, hpackages⟩ := Option.map_eq_some_iff.1 hrun
    have hall (P : QualName → Prop) (h : ∀ a ∈ nestedPackages, P a) :
        ∀ f ∈ c.provider.fragments, P f.package := by
      rw [← hpackages] at h
      exact List.forall_mem_map.1 h
    have hvalid : ∀ f ∈ c.provider.fragments, f.package.isValidPackage = true :=
      hall (·.isValidPackage = true) (by decide +kernel)
    have hblank : ∀ f ∈ c.provider.fragments, ∀ x ∈ f.package.chars, Text.isBlank x = false := by
      refine hall (∀ x ∈ ·.chars, Text.isBlank x = false) fun a ha x hx => ?_
      simpa using List.all_eq_true.1 (List.all_eq_true.1 hplain a ha) x hx
    obtain ⟨f, hf, hcodec⟩ : ∃ f ∈ c.provider.fragments, f.package = ofText "media.audio.codec" :=
      List.mem_map.1 (hpackages ▸ List.mem_cons_self)
    have hstarts : f.package.startsWith (ofText "media.audio") = true := by
      rw [hcodec]
      decide +kernel
    obtain ⟨hlisted, levels, hlevels, -, hreached, -⟩ := subPackages_tree hc hvalid hblank
    obtain ⟨names, hnames, -, hmem⟩ := hlisted (ofText "media")
    obtain ⟨n, hn⟩ := hreached f hf _ hstarts
    refine ⟨m, s, c, hload, hc, hvalid, hblank, ⟨names, hnames, ?_, ?_⟩, n, _, hlevels n, hn⟩
    · exact (hmem _).2 ⟨by decide +kernel, by decide +kernel, f, hf, hstarts⟩
    · exact fun h => absurd ((hmem _).1 h).2.1 (by decide +kernel)
  · cases hrun

end Module

end SymbolAtlas
