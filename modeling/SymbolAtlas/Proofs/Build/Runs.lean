import SymbolAtlas.Proofs.Build.Collection

namespace SymbolAtlas

open Files Relation

namespace LibraryCollection

variable {s : LibrarySearch} {t : Tree} {c c' c₁ c₂ : LibraryCollection}
  {first more : List LibraryDemand}

/-- The demand that is next is met. -/
def Step (s : LibrarySearch) (t : Tree) (c c' : LibraryCollection) : Prop :=
  ∃ d rest, c.demands = d :: rest ∧ s.meet t { c with demands := rest } d = .ok c'

def Runs (s : LibrarySearch) (t : Tree) : LibraryCollection → LibraryCollection → Prop :=
  ReflTransGen (Step s t)

/-- The demand that is next is not answered. -/
def Stuck (s : LibrarySearch) (t : Tree) (c : LibraryCollection) : Prop :=
  ∃ d rest e, c.demands = d :: rest ∧ s.answer t d = .error e

/-! ## Steps -/

theorem meet_eq_error {d : LibraryDemand} {e : BuildError} :
    s.meet t c d = .error e ↔ s.answer t d = .error e := by
  constructor
  · intro h
    rcases except_bind_eq_error.1 h with h | ⟨l, -, h⟩
    · exact h
    · cases l <;> cases h
  · exact fun h => except_bind_eq_error.2 (.inl h)

theorem step_unique : Relator.RightUnique (Step s t) := by
  rintro c c₁ c₂ ⟨d, rest, hd, h₁⟩ ⟨d', rest', hd', h₂⟩
  obtain ⟨rfl, rfl⟩ := List.cons.inj (hd.symm.trans hd')
  exact Except.ok.inj (h₁.symm.trans h₂)

theorem not_step_of_ended (h : c.demands = []) : ¬ Step s t c c' := by
  rintro ⟨d, rest, hd, -⟩
  cases h.symm.trans hd

theorem Stuck.not_step (h : Stuck s t c) : ¬ Step s t c c' := by
  rintro ⟨d, rest, hd, hmeet⟩
  obtain ⟨d', rest', e, hd', herror⟩ := h
  obtain ⟨rfl, rfl⟩ := List.cons.inj (hd.symm.trans hd')
  cases hmeet.symm.trans (meet_eq_error.2 herror)

/-- A collection that goes no further is the end of every run there is. -/
theorem Runs.to_end (h₁ : Runs s t c c₁) (h₂ : Runs s t c c₂) (hend : ∀ c', ¬ Step s t c₁ c') :
    Runs s t c₂ c₁ := by
  rcases ReflTransGen.total_of_right_unique step_unique h₁ h₂ with h | h
  · rcases ReflTransGen.cases_head_iff.1 h with rfl | ⟨c', hstep, -⟩
    · exact .refl
    · exact absurd hstep (hend c')
  · exact h

/-- The run does not both end and get stuck. -/
theorem Runs.not_stuck (h₁ : Runs s t c c₁) (hend : c₁.demands = []) (h₂ : Runs s t c c₂) :
    ¬ Stuck s t c₂ := by
  intro hstuck
  have h := h₁.to_end h₂ fun _ => not_step_of_ended hend
  rcases ReflTransGen.cases_head_iff.1 h with rfl | ⟨c', hstep, -⟩
  · obtain ⟨d, rest, e, hd, -⟩ := hstuck
    cases hend.symm.trans hd
  · exact hstuck.not_step hstep

/-! ## Whole runs -/

theorem runs_of_meetAll {steps : Nat} (h : s.meetAll t steps c = .ok c') : Runs s t c c' := by
  induction steps generalizing c with
  | zero => exact Except.ok.inj h ▸ .refl
  | succ steps ih =>
    rw [LibrarySearch.meetAll] at h
    split at h
    · exact Except.ok.inj h ▸ .refl
    · rename_i d rest hd
      obtain ⟨c₁, hmeet, hrest⟩ := except_bind_eq_ok.1 h
      exact .head ⟨d, rest, hd, hmeet⟩ (ih hrest)

/-- Collecting fails at the demand that the run stops at, and for its reason. -/
theorem exists_error_of_meetAll {steps : Nat} {e : BuildError}
    (h : s.meetAll t steps c = .error e) :
    ∃ c' d rest, Runs s t c c' ∧ c'.demands = d :: rest ∧ s.answer t d = .error e := by
  induction steps generalizing c with
  | zero => cases h
  | succ steps ih =>
    rw [LibrarySearch.meetAll] at h
    split at h
    · cases h
    rename_i d rest hd
    rcases except_bind_eq_error.1 h with hmeet | ⟨c₁, hmeet, hrest⟩
    · exact ⟨c, d, rest, .refl, hd, meet_eq_error.1 hmeet⟩
    · obtain ⟨c', d', rest', hruns, hd', herror⟩ := ih hrest
      exact ⟨c', d', rest', .head ⟨d, rest, hd, hmeet⟩ hruns, hd', herror⟩

theorem stuck_of_meetAll {steps : Nat} {e : BuildError} (h : s.meetAll t steps c = .error e) :
    ∃ c', Runs s t c c' ∧ Stuck s t c' := by
  obtain ⟨c', d, rest, hruns, hd, herror⟩ := exists_error_of_meetAll h
  exact ⟨c', hruns, d, rest, e, hd, herror⟩

/-- What is kept along a run. -/
theorem Runs.collected (hfirst : ∀ d ∈ first, d.dependent = none) (h : Runs s t c c')
    (hc : Collected s t first c) : Collected s t first c' := by
  induction h with
  | refl => exact hc
  | tail _ hstep ih =>
    obtain ⟨d, rest, hd, hmeet⟩ := hstep
    exact (ih.meet hfirst hd hmeet).1

/-- The step bound is enough for the run from any demands. -/
theorem ended_of_meetAll (hfirst : ∀ d ∈ first, d.dependent = none)
    (h : s.meetAll t (LibrarySearch.stepBound t first.length) { demands := first } = .ok c) :
    c.demands = [] :=
  ((Collected.start s t first).meetAll hfirst (Nat.le_refl _) h).2

/-- The run from a list of demands comes to its end or gets stuck. -/
theorem exists_ended_or_stuck (s : LibrarySearch) (t : Tree)
    (hfirst : ∀ d ∈ first, d.dependent = none) :
    (∃ c, Runs s t { demands := first } c ∧ c.demands = []) ∨
      ∃ c, Runs s t { demands := first } c ∧ Stuck s t c := by
  cases h : s.meetAll t (LibrarySearch.stepBound t first.length) { demands := first } with
  | ok c => exact .inl ⟨c, runs_of_meetAll h, ended_of_meetAll hfirst h⟩
  | error e => exact .inr (stuck_of_meetAll h)

/-- Collecting is the run from the first demands to its end. -/
theorem collect_eq_ok {names : List String} : s.collect t names = .ok c ↔
    Runs s t { demands := s.firstDemands t names } c ∧ c.demands = [] := by
  constructor
  · exact fun h => ⟨runs_of_meetAll h, ended_of_meetAll LibrarySearch.dependent_firstDemands h⟩
  · rintro ⟨hruns, hend⟩
    cases h : s.collect t names with
    | ok c' =>
      have hend' := ended_of_meetAll LibrarySearch.dependent_firstDemands h
      have hback := hruns.to_end (runs_of_meetAll h) fun _ => not_step_of_ended hend
      rcases ReflTransGen.cases_head_iff.1 hback with rfl | ⟨c₁, hstep, -⟩
      · rfl
      · exact absurd hstep (not_step_of_ended hend')
    | error e =>
      obtain ⟨c', hruns', hstuck⟩ := stuck_of_meetAll h
      exact absurd hstuck (hruns.not_stuck hend hruns')

/-! ## Demands that wait behind others -/

/-- The collection with more demands behind its own. -/
def behind (c : LibraryCollection) (more : List LibraryDemand) : LibraryCollection :=
  { c with demands := c.demands ++ more }

theorem enter_behind (c : LibraryCollection) (more : List LibraryDemand) (l : ResolvedLibrary)
    (dependent : Option Nat) :
    (c.behind more).enter l dependent = (c.enter l dependent).behind more := by
  have hnumber : (c.behind more).number? l.name = c.number? l.name := rfl
  unfold enter
  rw [hnumber]
  cases c.number? l.name with
  | some n => cases dependent <;> rfl
  | none => cases dependent <;> simp [behind, link]

theorem meet_behind {d : LibraryDemand} (h : s.meet t c d = .ok c') :
    s.meet t (c.behind more) d = .ok (c'.behind more) := by
  obtain ⟨r, ha, hc'⟩ := except_bind_eq_ok.1 h
  refine except_bind_eq_ok.2 ⟨r, ha, ?_⟩
  cases r with
  | none => exact Except.ok.inj hc' ▸ rfl
  | some l => exact Except.ok.inj hc' ▸ congrArg Except.ok (enter_behind c more l d.dependent)

theorem Runs.behind (h : Runs s t c c') (more : List LibraryDemand) :
    Runs s t (c.behind more) (c'.behind more) := by
  induction h with
  | refl => exact .refl
  | tail _ hstep ih =>
    obtain ⟨d, rest, hd, hmeet⟩ := hstep
    exact ih.tail ⟨d, rest ++ more, by simp [LibraryCollection.behind, hd], meet_behind hmeet⟩

theorem Stuck.behind (h : Stuck s t c) (more : List LibraryDemand) : Stuck s t (c.behind more) := by
  obtain ⟨d, rest, e, hd, herror⟩ := h
  exact ⟨d, rest ++ more, e, by simp [LibraryCollection.behind, hd], herror⟩

/-- The demands in front are met first, as if they were alone. -/
theorem exists_runs_append (hfirst : ∀ d ∈ first, d.dependent = none)
    (h : Runs s t { demands := first ++ more } c) (hend : c.demands = []) :
    ∃ c₁, Runs s t { demands := first } c₁ ∧ c₁.demands = [] ∧
      Runs s t { c₁ with demands := more } c := by
  rcases exists_ended_or_stuck s t hfirst with ⟨c₁, hruns, hend₁⟩ | ⟨c₁, hruns, hstuck⟩
  · have heq : c₁.behind more = { c₁ with demands := more } := by
      rw [LibraryCollection.behind, hend₁, List.nil_append]
    exact ⟨c₁, hruns, hend₁, heq ▸ h.to_end (hruns.behind more) fun _ => not_step_of_ended hend⟩
  · exact absurd (hstuck.behind more) (h.not_stuck hend (hruns.behind more))

/-- Conversely, what is met in front leaves those that wait behind to be met. -/
theorem Runs.append (hruns : Runs s t { demands := first } c₁) (hend : c₁.demands = [])
    (h : Runs s t { c₁ with demands := more } c) : Runs s t { demands := first ++ more } c := by
  have heq : c₁.behind more = { c₁ with demands := more } := by
    rw [LibraryCollection.behind, hend, List.nil_append]
  exact (hruns.behind more).trans (heq ▸ h)

end LibraryCollection

end SymbolAtlas
