import Mathlib.Data.List.Induction
import Mathlib.Data.List.Infix
import SymbolAtlas.Proofs.Files.WellFormed
import SymbolAtlas.Proofs.Library.Directory

namespace SymbolAtlas

open Files

namespace Files

/-! ## Ways down -/

def Path.below (p : Path) (steps : Place) : Path :=
  steps.foldl Path.join p

theorem Path.below_concat (p : Path) (steps : Place) (name : String) :
    p.below (steps ++ [name]) = (p.below steps).join name := by
  simp [below]

theorem Path.spot_below (p : Path) {steps : Place} (hsteps : ∀ name ∈ steps, IsName name) (wd : Place) :
    (p.below steps).spot wd = p.spot wd ++ steps := by
  induction steps using List.reverseRecOn with
  | nil => simp [below]
  | append_singleton front last ih =>
    obtain ⟨hfront, hlast⟩ := List.forall_mem_append.1 hsteps
    rw [below_concat, spot_join _ (hlast last List.mem_cons_self), ih hfront, List.append_assoc]

namespace Tree

variable {t : Tree} {p root : Path} {place : Place} {steps : Place} {entry : Entry}

theorem isFile_iff : t.isFile p = true ↔
    ∃ q contents, t.place p = .ok q ∧ t.get? q = some (.file contents) := by
  unfold isFile
  cases hplace : t.place p with
  | error fault => simp [find, hplace, bind, Except.bind]
  | ok q =>
    rw [find_of_place hplace]
    rcases hget : t.get? q with _ | _ | contents <;> simp [hget]

/-- Whatever stands at or below a path can be looked up by a path of its own. -/
def Readable (t : Tree) (root : Path) : Prop :=
  ∀ place steps entry, t.place root = .ok place → t.get? (place ++ steps) = some entry →
    (root.below steps).Fits

/-- The names on the way to an entry lead to it. -/
theorem WellFormed.leads_below (ht : t.WellFormed) (hread : t.Readable root)
    (hplace : t.place root = .ok place) (hentry : t.get? (place ++ steps) = some entry) :
    t.Leads (root.below steps) (place ++ steps) := by
  induction steps using List.reverseRecOn generalizing entry with
  | nil =>
    rw [List.append_nil]
    exact leads_of_place hplace
  | append_singleton front last ih =>
    have hfits := hread _ _ _ hplace hentry
    have hname : Path.IsName last := ht.isName hentry last (by simp)
    rw [← List.append_assoc] at hentry ⊢
    have hdir := ht.get?_above (List.cons_ne_nil last []) hentry
    have hfront := ih hdir
    rw [Path.below_concat] at hfits ⊢
    exact hfront.join hname hdir (hfits.last hfront.nonempty hname)

end Tree

end Files

namespace DirectoryLibrary

variable {t : Tree} {root : Path} {place : Place} {steps rest : Place} {name : String} {depth : Nat}

/-- A directory with a manifest file in it. -/
structure StandsAt (t : Tree) (place : Place) : Prop where
  directory : t.get? place = some .directory
  manifest : ∃ contents, t.get? (place ++ ["manifest"]) = some (.file contents)

instance (t : Tree) (place : Place) : Decidable (StandsAt t place) :=
  match hmanifest : t.get? (place ++ ["manifest"]) with
  | some (.file contents) =>
    decidable_of_iff (t.get? place = some .directory) ⟨fun h => ⟨h, contents, hmanifest⟩, (·.directory)⟩
  | some .directory => isFalse fun h => by simpa [hmanifest] using h.manifest
  | none => isFalse fun h => by simpa [hmanifest] using h.manifest

/-- A directory is taken for a library when it is one. -/
theorem isLibrary_below (ht : t.WellFormed) (hread : t.Readable root)
    (hplace : t.place root = .ok place) (hdir : t.get? (place ++ steps) = some .directory) :
    isLibrary t (root.below steps) = true ↔ StandsAt t (place ++ steps) := by
  have hmanifest : manifestPath (root.below steps) = root.below (steps ++ ["manifest"]) :=
    (root.below_concat steps "manifest").symm
  rw [isLibrary, hmanifest, Tree.isFile_iff]
  constructor
  · rintro ⟨q, contents, hq, hfile⟩
    have hsteps : ∀ name ∈ steps ++ ["manifest"], Path.IsName name := by
      refine List.forall_mem_append.2 ⟨fun name hname => ?_, by simpa using isName_manifest⟩
      exact ht.isName hdir name (List.mem_append_right _ hname)
    rw [Tree.eq_spot_of_place hq, root.spot_below hsteps, ← Tree.eq_spot_of_place hplace,
      ← List.append_assoc] at hfile
    exact ⟨hdir, contents, hfile⟩
  · rintro ⟨-, contents, hfile⟩
    rw [List.append_assoc] at hfile
    exact ⟨_, contents, (ht.leads_below hread hplace hfile).place (hread _ _ _ hplace hfile), hfile⟩

/-! ## The search as a list of ways -/

/-- The ways to libraries that begin with a name, when `inner` are those from the directory of that
name. -/
def waysThrough (t : Tree) (place : Place) (name : String) (inner : List Place) : List Place :=
  if t.get? (place ++ [name]) = some .directory then
    if StandsAt t (place ++ [name]) then [[name]] else inner.map (name :: ·)
  else []

/-- The ways on which the search comes to libraries, going down from the directory at `place`. -/
def ways (t : Tree) : Nat → Place → List Place
  | 0, _ => []
  | depth + 1, place =>
    (t.children place).flatMap fun name => waysThrough t place name (ways t depth (place ++ [name]))

theorem mem_waysThrough {inner : List Place} : steps ∈ waysThrough t place name inner ↔
    StandsAt t (place ++ [name]) ∧ steps = [name] ∨
    (t.get? (place ++ [name]) = some .directory ∧ ¬ StandsAt t (place ++ [name])) ∧
      ∃ rest ∈ inner, steps = name :: rest := by
  unfold waysThrough
  split
  · rename_i hdir
    split <;> simp [*, eq_comm]
  · rename_i hdir
    have hnot : ¬ StandsAt t (place ++ [name]) := fun h => hdir h.directory
    simp [hdir, hnot]

theorem exists_cons_of_mem_waysThrough {inner : List Place}
    (h : steps ∈ waysThrough t place name inner) : ∃ rest, steps = name :: rest := by
  rcases mem_waysThrough.1 h with ⟨-, rfl⟩ | ⟨-, rest, -, rfl⟩
  · exact ⟨[], rfl⟩
  · exact ⟨rest, rfl⟩

/-- The search follows the ways. -/
theorem findBelow_eq (ht : t.WellFormed) (hread : t.Readable root) (hplace : t.place root = .ok place)
    (depth : Nat) (steps : Place) : findBelow t depth (place ++ steps) (root.below steps) =
      (ways t depth (place ++ steps)).map fun rest => root.below (steps ++ rest) := by
  induction depth generalizing steps with
  | zero => rfl
  | succ depth ih =>
    rw [findBelow, ways, List.map_flatMap]
    refine List.flatMap_congr fun name _ => ?_
    rw [← root.below_concat, waysThrough, List.append_assoc]
    cases hget : t.get? (place ++ (steps ++ [name])) with
    | none => rfl
    | some entry =>
      cases entry with
      | file contents => rfl
      | directory =>
        dsimp only
        rw [if_pos rfl]
        by_cases hstands : StandsAt t (place ++ (steps ++ [name]))
        · rw [if_pos ((isLibrary_below ht hread hplace hget).2 hstands), if_pos hstands]
          rfl
        · rw [if_neg (mt (isLibrary_below ht hread hplace hget).1 hstands), if_neg hstands, ih,
            List.map_map]
          simp

/-- The way comes to a library, and to none before it. -/
structure FirstOn (t : Tree) (place steps : Place) : Prop where
  nonempty : steps ≠ []
  library : StandsAt t (place ++ steps)
  outermost : ∀ above, above <+: steps → above ≠ [] → above ≠ steps → ¬ StandsAt t (place ++ above)

theorem firstOn_single (h : StandsAt t (place ++ [name])) : FirstOn t place [name] := by
  refine ⟨List.cons_ne_nil name [], h, fun above habove hne hsame => ?_⟩
  obtain ⟨more, rfl, hmore⟩ := (List.prefix_cons_iff.1 habove).resolve_left hne
  exact absurd (congrArg (name :: ·) (List.prefix_nil.1 hmore)) hsame

/-- A way goes on from a directory that is no library. -/
theorem FirstOn.cons (hnot : ¬ StandsAt t (place ++ [name])) (h : FirstOn t (place ++ [name]) rest) :
    FirstOn t place (name :: rest) := by
  refine ⟨List.cons_ne_nil name rest, ?_, fun above habove hne hsame => ?_⟩
  · rw [List.append_cons]
    exact h.library
  · obtain ⟨more, rfl, hmore⟩ := (List.prefix_cons_iff.1 habove).resolve_left hne
    rw [List.append_cons]
    by_cases hend : more = []
    · rwa [hend, List.append_nil]
    · exact h.outermost more hmore hend fun heq => hsame (congrArg (name :: ·) heq)

/-- The first name on a way leads to the library, or to another directory from which the way goes
on. -/
theorem FirstOn.cases (ht : t.WellFormed) (h : FirstOn t place steps) : ∃ name,
    StandsAt t (place ++ [name]) ∧ steps = [name] ∨
    (t.get? (place ++ [name]) = some .directory ∧ ¬ StandsAt t (place ++ [name])) ∧
      ∃ rest, FirstOn t (place ++ [name]) rest ∧ steps = name :: rest := by
  obtain ⟨name, rest, rfl⟩ := List.exists_cons_of_ne_nil h.nonempty
  have hlibrary := h.library
  rw [List.append_cons] at hlibrary
  by_cases hrest : rest = []
  · subst hrest
    exact ⟨name, .inl ⟨h.library, rfl⟩⟩
  have hdir := ht.get?_above hrest hlibrary.directory
  have hnot : ¬ StandsAt t (place ++ [name]) :=
    h.outermost [name] (List.prefix_append [name] rest) (List.cons_ne_nil name []) fun heq =>
      hrest (List.cons.inj heq).2.symm
  refine ⟨name, .inr ⟨⟨hdir, hnot⟩, rest, ⟨hrest, hlibrary, fun above habove hne hsame => ?_⟩, rfl⟩⟩
  rw [← List.append_cons]
  exact h.outermost (name :: above) ((List.prefix_cons_inj name).2 habove)
    (List.cons_ne_nil name above) fun heq => hsame (List.cons.inj heq).2

/-- The ways that are found are those to the first libraries, as far as the search goes. -/
theorem mem_ways (ht : t.WellFormed) :
    steps ∈ ways t depth place ↔ steps.length ≤ depth ∧ FirstOn t place steps := by
  induction depth generalizing place steps with
  | zero =>
    refine iff_of_false List.not_mem_nil ?_
    rintro ⟨hlength, hfirst⟩
    exact hfirst.nonempty (List.length_eq_zero_iff.1 (Nat.le_zero.1 hlength))
  | succ depth ih =>
    simp only [ways, List.mem_flatMap, mem_waysThrough, ih]
    constructor
    · rintro ⟨name, -, ⟨hstands, rfl⟩ | ⟨⟨-, hnot⟩, rest, ⟨hlength, hfirst⟩, rfl⟩⟩
      · exact ⟨Nat.le_add_left 1 depth, firstOn_single hstands⟩
      · exact ⟨Nat.succ_le_succ hlength, hfirst.cons hnot⟩
    · rintro ⟨hlength, hfirst⟩
      obtain ⟨name, ⟨hstands, rfl⟩ | ⟨⟨hdir, hnot⟩, rest, hrest, rfl⟩⟩ := hfirst.cases ht
      · exact ⟨name, ht.mem_children.2 ⟨_, hstands.directory⟩, .inl ⟨hstands, rfl⟩⟩
      · exact ⟨name, ht.mem_children.2 ⟨_, hdir⟩,
          .inr ⟨⟨hdir, hnot⟩, rest, ⟨Nat.le_of_succ_le_succ hlength, hrest⟩, rfl⟩⟩

/-- The ways are found in the order of the names on them. -/
theorem pairwise_ways (ht : t.WellFormed) (depth : Nat) (place : Place) :
    (ways t depth place).Pairwise (· < ·) := by
  induction depth generalizing place with
  | zero => exact .nil
  | succ depth ih =>
    rw [ways, List.pairwise_flatMap]
    constructor
    · intro name _
      unfold waysThrough
      split
      · split
        · exact List.pairwise_singleton _ _
        · rw [List.pairwise_map]
          exact (ih _).imp fun h => List.cons_lt_cons_iff.2 (.inr ⟨rfl, h⟩)
      · exact .nil
    · refine (ht.pairwise_children place).imp fun hlt x hx y hy => ?_
      obtain ⟨rest, rfl⟩ := exists_cons_of_mem_waysThrough hx
      obtain ⟨rest', rfl⟩ := exists_cons_of_mem_waysThrough hy
      exact List.cons_lt_cons_iff.2 (.inl hlt)

/-! ## What is found -/

/-- A library stands this way below the directory that a path leads to. -/
def StandsBelow (t : Tree) (root : Path) (steps : Place) : Prop :=
  ∃ place, t.place root = .ok place ∧ StandsAt t (place ++ steps)

theorem standsBelow_iff (hplace : t.place root = .ok place) :
    StandsBelow t root steps ↔ StandsAt t (place ++ steps) := by
  constructor
  · rintro ⟨q, hq, h⟩
    exact Except.ok.inj (hq.symm.trans hplace) ▸ h
  · exact fun h => ⟨place, hplace, h⟩

/-- The search begins at the directory that the path leads to. -/
theorem find_eq (ht : t.WellFormed) (hread : t.Readable root) (hdepth : 1 ≤ depth)
    (hplace : t.place root = .ok place) (hdir : t.get? place = some .directory) :
    find t root depth = (ways t depth place).map root.below := by
  have hbelow := findBelow_eq ht hread hplace depth []
  rw [List.append_nil] at hbelow
  simp only [find, hplace, hdir, Nat.max_eq_left hdepth]
  exact hbelow

/-- Below a path that leads to no directory nothing is found, and no library stands there. -/
theorem find_eq_nil (ht : t.WellFormed)
    (hno : ∀ place, t.place root = .ok place → t.get? place ≠ some .directory) (depth : Nat) :
    find t root depth = [] ∧ ∀ steps, steps ≠ [] → ¬ StandsBelow t root steps := by
  constructor
  · unfold find
    split
    · rfl
    · rename_i place hplace
      have hdir := hno place hplace
      split
      · contradiction
      · rfl
  · rintro steps hsteps ⟨place, hplace, hstands⟩
    exact hno place hplace (ht.get?_above hsteps hstands.directory)

/-- **What is found are the outermost libraries.** As far as the search goes, it finds each way down
from the root to a library with no other library on it, and nothing else. The ways come in the order
of the names on them, and the path that is given for each of them leads to its library. -/
theorem find_outermost (ht : t.WellFormed) (hread : t.Readable root) (hdepth : 1 ≤ depth) :
    ∃ found : List Place, find t root depth = found.map root.below ∧ found.Pairwise (· < ·) ∧
      (∀ steps, steps ∈ found ↔ 1 ≤ steps.length ∧ steps.length ≤ depth ∧ StandsBelow t root steps ∧
        ∀ above, above <+: steps → above ≠ [] → above ≠ steps → ¬ StandsBelow t root above) ∧
      ∀ steps ∈ found, ∃ place, t.place root = .ok place ∧
        t.place (root.below steps) = .ok (place ++ steps) := by
  by_cases hroot : ∃ place, t.place root = .ok place ∧ t.get? place = some .directory
  · obtain ⟨place, hplace, hdir⟩ := hroot
    refine ⟨ways t depth place, find_eq ht hread hdepth hplace hdir, pairwise_ways ht depth place,
      fun steps => ?_, fun steps hsteps => ⟨place, hplace, ?_⟩⟩
    · simp only [mem_ways ht, standsBelow_iff hplace]
      constructor
      · exact fun ⟨hlength, h⟩ => ⟨List.length_pos_iff.2 h.nonempty, hlength, h.library, h.outermost⟩
      · exact fun ⟨hne, hlength, hlibrary, houtermost⟩ =>
          ⟨hlength, List.length_pos_iff.1 hne, hlibrary, houtermost⟩
    · have hentry := ((mem_ways ht).1 hsteps).2.library.directory
      exact (ht.leads_below hread hplace hentry).place (hread _ _ _ hplace hentry)
  · have hno : ∀ place, t.place root = .ok place → t.get? place ≠ some .directory := by
      simpa using hroot
    obtain ⟨hfind, hnone⟩ := find_eq_nil ht hno depth
    refine ⟨[], hfind, .nil, fun steps => iff_of_false List.not_mem_nil ?_, nofun⟩
    rintro ⟨hlength, -, hstands, -⟩
    exact hnone steps (List.length_pos_iff.1 hlength) hstands

/-- To be readable is a matter of the entries below a path. -/
theorem readable_of_entries (hplace : t.place root = .ok place) (hroot : root.Fits)
    (h : ∀ e ∈ t.entries.entries, place <+: e.1 → (root.below (e.1.drop place.length)).Fits) :
    t.Readable root := by
  intro q steps entry hq hentry
  obtain rfl := Except.ok.inj (hq.symm.trans hplace)
  by_cases hempty : q ++ steps = []
  · rw [(List.append_eq_nil_iff.1 hempty).2]
    exact hroot
  · rw [Tree.get?, if_neg (by simpa using hempty)] at hentry
    have hfits := h _ (Table.mem_entries_of_get? hentry) (List.prefix_append q steps)
    rwa [List.drop_left] at hfits

/-- A repository with a library inside another one, and libraries two and three levels down. -/
def repository : Tree where
  entries := ⟨[(["repo"], .directory), (["repo", "sdl"], .directory),
    (["repo", "sdl", "manifest"], .file []), (["repo", "sdl", "nested"], .directory),
    (["repo", "sdl", "nested", "manifest"], .file []), (["repo", "notes"], .directory),
    (["repo", "notes", "wire"], .directory), (["repo", "notes", "wire", "manifest"], .file []),
    (["repo", "notes", "old"], .directory), (["repo", "notes", "old", "net"], .directory),
    (["repo", "notes", "old", "net", "manifest"], .file [])]⟩
  workingDir := []

/-- Two levels down, the library inside the other one is left out, and so is the one a level further
down. -/
theorem find_outermost_repository :
    repository.WellFormed ∧ repository.Readable ⟨"repo"⟩ ∧ ∃ found : List Place,
      find repository ⟨"repo"⟩ 2 = found.map (Files.Path.mk "repo").below ∧ found.Pairwise (· < ·) ∧
      ["sdl"] ∈ found ∧ ["notes", "wire"] ∈ found ∧ ["sdl", "nested"] ∉ found ∧
      ["notes", "old", "net"] ∉ found := by
  have ht : repository.WellFormed := by decide +kernel
  have hplace : repository.place ⟨"repo"⟩ = .ok ["repo"] := by decide +kernel
  have hread : repository.Readable ⟨"repo"⟩ :=
    readable_of_entries hplace (by decide +kernel) (by decide +kernel)
  have hdepth : 1 ≤ 2 := by decide
  obtain ⟨found, hfind, hordered, hmem, -⟩ := find_outermost ht hread hdepth
  simp only [standsBelow_iff hplace] at hmem
  have habove {steps : Place} (h : ∀ above ∈ steps.inits, above ≠ [] → above ≠ steps →
      ¬ StandsAt repository (["repo"] ++ above)) : ∀ above, above <+: steps → above ≠ [] →
        above ≠ steps → ¬ StandsAt repository (["repo"] ++ above) :=
    fun above hprefix => h above ((List.mem_inits above steps).2 hprefix)
  refine ⟨ht, hread, found, hfind, hordered, (hmem _).2 ?_, (hmem _).2 ?_, fun h => ?_, fun h => ?_⟩
  · exact ⟨by decide, by decide, by decide +kernel, habove (by decide +kernel)⟩
  · exact ⟨by decide, by decide, by decide +kernel, habove (by decide +kernel)⟩
  · exact ((hmem _).1 h).2.2.2 ["sdl"] (by decide) (by decide) (by decide) (by decide +kernel)
  · exact absurd ((hmem _).1 h).2.1 (by decide)

end DirectoryLibrary

end SymbolAtlas
