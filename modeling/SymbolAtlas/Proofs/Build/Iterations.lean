import Mathlib.Algebra.GroupWithZero.Nat
import SymbolAtlas.Proofs.Build.Resolution
import SymbolAtlas.Proofs.Build.Runs

namespace SymbolAtlas

open Files Relation

namespace LibrarySearch

/-- The default libraries that a build begins with. -/
def defaultPaths (s : LibrarySearch) (t : Tree) : List Path :=
  if s.dropDefaults then [] else s.defaultsDir.toList.flatMap fun dir => DirectoryLibrary.find t dir 1

theorem firstDemands_eq (s : LibrarySearch) (t : Tree) (names : List String) :
    s.firstDemands t names = names.map dependency ++ (s.defaultPaths t).map defaultAt :=
  rfl

end LibrarySearch

namespace LibraryCollection

open LibrarySearch

variable {s : LibrarySearch} {t : Tree} {c c' c₁ c₂ : LibraryCollection} {first : List LibraryDemand}
  {k n : Nat}

/-- That many demands are met, one after the other. -/
inductive RunsIn (s : LibrarySearch) (t : Tree) (c : LibraryCollection) :
    Nat → LibraryCollection → Prop
  | refl : RunsIn s t c 0 c
  | tail {n : Nat} {c₁ c₂ : LibraryCollection} (h : RunsIn s t c n c₁) (hstep : Step s t c₁ c₂) :
      RunsIn s t c (n + 1) c₂

theorem RunsIn.runs (h : RunsIn s t c n c') : Runs s t c c' := by
  induction h with
  | refl => exact .refl
  | tail _ hstep ih => exact ih.tail hstep

theorem Runs.exists_runsIn (h : Runs s t c c') : ∃ n, RunsIn s t c n c' := by
  induction h with
  | refl => exact ⟨0, .refl⟩
  | tail _ hstep ih =>
    obtain ⟨n, hn⟩ := ih
    exact ⟨n + 1, hn.tail hstep⟩

theorem RunsIn.unique (h₁ : RunsIn s t c n c₁) (h₂ : RunsIn s t c n c₂) : c₁ = c₂ := by
  induction n generalizing c₁ c₂ with
  | zero =>
    cases h₁
    cases h₂
    rfl
  | succ n ih =>
    cases h₁ with
    | tail h₁ hstep₁ =>
      cases h₂ with
      | tail h₂ hstep₂ => exact step_unique hstep₁ (ih h₁ h₂ ▸ hstep₂)

/-- No run is longer than one to a collection that goes no further. -/
theorem RunsIn.le_of_end (h : RunsIn s t c n c') (hend : ∀ c₁, ¬ Step s t c' c₁)
    (hk : RunsIn s t c k c₂) : k ≤ n := by
  induction hk with
  | refl => exact Nat.zero_le n
  | tail hk hstep ih =>
    refine Nat.lt_of_le_of_ne ih ?_
    rintro rfl
    exact hend _ (h.unique hk ▸ hstep)

/-- What one step does: the demand that is next is used up, and if it opens a library by a name that
is new, the demands of this library come next. -/
inductive Progress (c c' : LibraryCollection) : Prop
  | known {d : LibraryDemand} (hd : c.demands = d :: c'.demands) (hlib : c'.libraries = c.libraries)
  | expanded {d : LibraryDemand} {rest : List LibraryDemand} {l : ResolvedLibrary}
      (hd : c.demands = d :: rest) (hnew : ∀ k ∈ c.libraries, k.name ≠ l.name)
      (hlib : c'.libraries = c.libraries ++ [l])
      (hdem : c'.demands = demandsOf c.libraries.length l ++ rest)

theorem Collected.progress (h : Collected s t first c) (hfirst : ∀ d ∈ first, d.dependent = none)
    (hstep : Step s t c c') : Progress c c' := by
  obtain ⟨d, rest, hd, hmeet⟩ := hstep
  obtain ⟨h', ⟨hlib, rfl⟩ | ⟨l, -, hlib, hdem⟩⟩ := h.meet hfirst hd hmeet
  · exact .known hd hlib
  · refine .expanded hd (fun k hk heq => ?_) hlib hdem
    have hdistinct := h'.distinct
    rw [hlib, List.map_append, List.nodup_append] at hdistinct
    exact hdistinct.2.2 k.name (List.mem_map_of_mem hk) l.name (by simp) heq

/-- How many names the libraries depend on, counted for each library. -/
def listed (c : LibraryCollection) : Nat :=
  (c.libraries.map fun l => l.manifest.depends.length).sum

theorem Progress.listed (h : Progress c c') :
    1 + c'.demands.length + c.listed = c.demands.length + c'.listed := by
  cases h with
  | known hd hlib =>
    rw [LibraryCollection.listed, LibraryCollection.listed, hd, hlib, List.length_cons]
    omega
  | expanded hd _ hlib hdem =>
    simp only [LibraryCollection.listed, hd, hlib, hdem, demandsOf, List.length_cons,
      List.length_append, List.length_map, List.map_append, List.sum_append, List.map_singleton,
      List.sum_singleton]
    omega

/-- The demands that are met and those that wait are the first ones and those of the libraries that
are there. -/
theorem RunsIn.demandsMade (hfirst : ∀ d ∈ first, d.dependent = none)
    (h : RunsIn s t { demands := first } n c) : n + c.demands.length = first.length + c.listed := by
  induction h with
  | refl => simp [LibraryCollection.listed]
  | tail hrun hstep ih =>
    have hcollected := hrun.runs.collected hfirst (.start s t first)
    have hmade := (hcollected.progress hfirst hstep).listed
    omega

/-- The demands that are made until `c` is collected: one for each request, for each default library,
and for each name that a library depends on. -/
def demandsMade (s : LibrarySearch) (t : Tree) (names : List String) (c : LibraryCollection) : Nat :=
  names.length + (s.defaultPaths t).length + c.listed

end LibraryCollection

namespace LibrarySearch

open LibraryCollection

variable {s : LibrarySearch} {t : Tree} {names : List String}

/-- The run from the first demands ends as collecting does. -/
theorem exists_end (s : LibrarySearch) (t : Tree) (names : List String) :
    ∃ c, Runs s t { demands := s.firstDemands t names } c ∧ (∀ c', ¬ Step s t c c') ∧
      (c.demands = [] ∧ s.collect t names = .ok c ∨
        ∃ d rest e, c.demands = d :: rest ∧ s.answer t d = .error e ∧
          s.collect t names = .error e) := by
  cases h : s.collect t names with
  | ok c =>
    obtain ⟨hruns, hend⟩ := collect_eq_ok.1 h
    exact ⟨c, hruns, fun _ => not_step_of_ended hend, .inl ⟨hend, rfl⟩⟩
  | error e =>
    obtain ⟨c, d, rest, hruns, hd, herror⟩ := exists_error_of_meetAll h
    exact ⟨c, hruns, fun _ => Stuck.not_step ⟨d, rest, e, hd, herror⟩,
      .inr ⟨d, rest, e, hd, herror, rfl⟩⟩

/-- **Collecting ends, and meets no more demands than are made.** There is a longest run from the
first demands, also when libraries depend on each other in a cycle. It meets all that are made, or
stops at a demand that is not answered, and then collecting fails. Each step uses up a demand, and
the libraries that it takes in have different names, so that no name is expanded twice. -/
theorem collect_ends (s : LibrarySearch) (t : Tree) (names : List String) :
    let start : LibraryCollection := { demands := s.firstDemands t names }
    ∃ n c, RunsIn s t start n c ∧
      (c.demands = [] ∧ s.collect t names = .ok c ∧ n = demandsMade s t names c ∨
        ∃ d rest e, c.demands = d :: rest ∧ s.answer t d = .error e ∧
          s.collect t names = .error e ∧ n + 1 ≤ demandsMade s t names c) ∧
      ∀ k c', RunsIn s t start k c' → k ≤ n ∧
        k + c'.demands.length = demandsMade s t names c' ∧
        (c'.libraries.map (·.name)).Nodup ∧ ∀ c'', Step s t c' c'' → Progress c' c'' := by
  intro start
  have hmade {k : Nat} {c : LibraryCollection} (h : RunsIn s t start k c) :
      k + c.demands.length = demandsMade s t names c := by
    rw [h.demandsMade dependent_firstDemands, demandsMade, firstDemands_eq, List.length_append,
      List.length_map, List.length_map]
  obtain ⟨c, hruns, hlast, hend⟩ := exists_end s t names
  obtain ⟨n, hn⟩ := hruns.exists_runsIn
  refine ⟨n, c, hn, ?_, fun k c' hk => ⟨hn.le_of_end hlast hk, hmade hk, ?_⟩⟩
  · have hcount := hmade hn
    rcases hend with ⟨hd, hcollect⟩ | ⟨d, rest, e, hd, herror, hcollect⟩
    · rw [hd, List.length_nil] at hcount
      exact .inl ⟨hd, hcollect, hcount⟩
    · rw [hd, List.length_cons] at hcount
      exact .inr ⟨d, rest, e, hd, herror, hcollect, by omega⟩
  · have hcollected := hk.runs.collected dependent_firstDemands (.start s t _)
    exact ⟨hcollected.distinct, fun c'' => hcollected.progress dependent_firstDemands⟩

end LibrarySearch

end SymbolAtlas
