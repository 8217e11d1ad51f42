import Mathlib.Data.List.Nodup
import Mathlib.Logic.Relation
import SymbolAtlas.Build.Order
import SymbolAtlas.Proofs.Except

/-!
# Dependency order is decided

`DependencyGraph.order` gives an order with dependencies first exactly when no node lies on a cycle,
and otherwise names a node that lies on one:

* `Search.Sound`: what the first search keeps. A node that is finished while it depends on `m` has
  `m` finished before it, or `m` leads back to it;
* `walks`: nodes on top of the stack are searched from as if nothing stood below them, and a node
  that stands on the stack twice is passed the second time;
* `second?_eq_some`, `second?_eq_none`: where the second search, against the edges, finds a second
  node;
* `order_error`: the node that is named lies on a cycle;
* `order_ok`: the order holds every node once, and each after all that it depends on.
-/

namespace SymbolAtlas

open Relation

namespace DependencyGraph

variable {g : DependencyGraph}

def DependsOn (g : DependencyGraph) (a b : Nat) : Prop :=
  (a, b) ∈ g.edges

/-- Following dependencies from `n` leads back to `n`. -/
def OnCycle (g : DependencyGraph) (n : Nat) : Prop :=
  TransGen g.DependsOn n n

def Bounded (g : DependencyGraph) : Prop :=
  ∀ a b, g.DependsOn a b → a < g.size ∧ b < g.size

theorem mem_dependencies {a b : Nat} : b ∈ g.dependencies a ↔ g.DependsOn a b := by
  simp [dependencies, DependsOn]

theorem mem_dependents {a b : Nat} : a ∈ g.dependents b ↔ g.DependsOn a b := by
  simp [dependents, DependsOn]

/-! ## The search -/

/-- A node that is being searched from: discovered, and not finished yet. -/
def Search.Open (s : Search) (n : Nat) : Prop :=
  n ∈ s.discovered ∧ n ∉ s.finished

/-- What a search keeps. `settled` is about the moment in which `n` was finished. -/
structure Search.Sound (g : DependencyGraph) (s : Search) : Prop where
  bounded : ∀ n ∈ s.discovered, n < g.size
  discovered_nodup : s.discovered.Nodup
  finished_nodup : s.finished.Nodup
  finished_discovered : ∀ n ∈ s.finished, n ∈ s.discovered
  irreflexive : ∀ n ∈ s.discovered, ¬ g.DependsOn n n
  settled : ∀ late n early, s.finished = late ++ n :: early →
    ∀ m, g.DependsOn n m → m ∈ early ∨ ReflTransGen g.DependsOn m n

/-- What searching from nodes changes: more is discovered, and nothing that was there before is
opened or closed. -/
structure Search.Extends (s s' : Search) : Prop where
  discovered : ∀ n ∈ s.discovered, n ∈ s'.discovered
  isOpen : ∀ n, s'.Open n ↔ s.Open n

theorem Search.Extends.refl (s : Search) : s.Extends s :=
  ⟨fun _ => id, fun _ => Iff.rfl⟩

theorem Search.Extends.trans {s₁ s₂ s₃ : Search} (h : s₁.Extends s₂) (h' : s₂.Extends s₃) :
    s₁.Extends s₃ :=
  ⟨fun n hn => h'.discovered n (h.discovered n hn), fun n => (h'.isOpen n).trans (h.isOpen n)⟩

theorem Search.isNew_iff {s : Search} {n : Nat} : s.isNew n = true ↔ n ∉ s.discovered := by
  simp [isNew]

theorem Search.finish_of_not_mem {s : Search} {n : Nat} (hn : n ∉ s.finished) :
    s.finish n = { s with finished := n :: s.finished } :=
  if_neg (by simpa using hn)

/-- A node that is on top of the stack again is passed when it is finished already. -/
theorem Search.finish_of_mem {s : Search} {n : Nat} (hn : n ∈ s.finished) : s.finish n = s :=
  if_pos (by simpa using hn)

theorem Search.Sound.length_lt {s : Search} {n : Nat} (h : s.Sound g) (hn : n < g.size)
    (hnew : n ∉ s.discovered) : s.discovered.length < g.size := by
  have hsub : n :: s.discovered ⊆ List.range g.size :=
    List.cons_subset.2 ⟨List.mem_range.2 hn, fun m hm => List.mem_range.2 (h.bounded m hm)⟩
  have hle := (List.nodup_cons.2 ⟨hnew, h.discovered_nodup⟩).length_le_of_subset hsub
  rwa [List.length_range] at hle

theorem Search.Sound.discover {s : Search} {n : Nat} (h : s.Sound g) (hn : n < g.size)
    (hnew : n ∉ s.discovered) (hself : ¬ g.DependsOn n n) : (s.discover n).Sound g where
  bounded := by
    intro m hm
    rcases List.mem_cons.1 hm with rfl | hm
    · exact hn
    · exact h.bounded m hm
  discovered_nodup := List.nodup_cons.2 ⟨hnew, h.discovered_nodup⟩
  finished_nodup := h.finished_nodup
  finished_discovered := fun m hm => List.mem_cons_of_mem n (h.finished_discovered m hm)
  irreflexive := by
    intro m hm
    rcases List.mem_cons.1 hm with rfl | hm
    · exact hself
    · exact h.irreflexive m hm
  settled := h.settled

theorem Search.Sound.open_discover {s : Search} {n : Nat} (h : s.Sound g) (hnew : n ∉ s.discovered)
    (m : Nat) : (s.discover n).Open m ↔ m = n ∨ s.Open m := by
  have hfin : n ∉ s.finished := fun hm => hnew (h.finished_discovered n hm)
  constructor
  · rintro ⟨hd, hf⟩
    exact (List.mem_cons.1 hd).imp id fun hd => ⟨hd, hf⟩
  · rintro (rfl | ⟨hd, hf⟩)
    · exact ⟨List.mem_cons_self, hfin⟩
    · exact ⟨List.mem_cons_of_mem n hd, hf⟩

/-- Finishing an open node keeps the search sound when its dependencies are finished or lead to it. -/
theorem Search.Sound.finish {s : Search} {n : Nat} (h : s.Sound g) (hn : s.Open n)
    (hdeps : ∀ m, g.DependsOn n m → m ∈ s.finished ∨ ReflTransGen g.DependsOn m n) :
    (s.finish n).Sound g := by
  rw [finish_of_not_mem hn.2]
  refine
    { h with
      finished_nodup := List.nodup_cons.2 ⟨hn.2, h.finished_nodup⟩
      finished_discovered := ?_
      settled := ?_ }
  · intro m hm
    rcases List.mem_cons.1 hm with rfl | hm
    · exact hn.1
    · exact h.finished_discovered m hm
  · intro late k early heq m hm
    cases late with
    | nil =>
      obtain ⟨rfl, rfl⟩ := List.cons.inj heq
      exact hdeps m hm
    | cons l late =>
      obtain ⟨-, hrest⟩ := List.cons.inj heq
      exact h.settled late k early hrest m hm

theorem Search.open_finish {s : Search} {n : Nat} (hn : s.Open n) (m : Nat) :
    (s.finish n).Open m ↔ s.Open m ∧ m ≠ n := by
  rw [finish_of_not_mem hn.2]
  constructor
  · rintro ⟨hd, hf⟩
    obtain ⟨hne, hf⟩ := not_or.1 (fun h => hf (List.mem_cons.2 h))
    exact ⟨⟨hd, hf⟩, hne⟩
  · rintro ⟨⟨hd, hf⟩, hne⟩
    exact ⟨hd, fun h => (List.mem_cons.1 h).elim hne hf⟩

/-- What searching from the nodes on top of a stack comes to, whatever stands below them: it is
broken off at a node that depends on itself, or goes on below them. -/
inductive Walks (g : DependencyGraph) (s : Search) (nodes : List Nat) : Prop
  | broken {k : Nat} (self : g.DependsOn k k)
      (walk : ∀ stack, g.walk (nodes ++ stack) s = .error k) : Walks g s nodes
  | done {s' : Search} (sound : s'.Sound g) (grows : s.Extends s')
      (discovered : ∀ k ∈ nodes, k ∈ s'.discovered)
      (walk : ∀ stack, g.walk (nodes ++ stack) s = g.walk stack s') : Walks g s nodes

theorem walk_new {s : Search} {n : Nat} (hnew : s.isNew n) (hself : ¬ g.DependsOn n n)
    (stack : List Nat) : g.walk (n :: stack) s =
      g.walk ((g.dependencies n).filter (s.discover n).isNew ++ n :: stack) (s.discover n) := by
  have hnot : ¬ (g.dependencies n).contains n = true := by simpa [mem_dependencies] using hself
  rw [walk, dif_pos hnew, if_neg hnot, push_eq]

theorem walk_self {s : Search} {n : Nat} (hnew : s.isNew n) (hself : g.DependsOn n n)
    (stack : List Nat) : g.walk (n :: stack) s = .error n := by
  have hmem : (g.dependencies n).contains n = true := by simpa [mem_dependencies] using hself
  rw [walk, dif_pos hnew, if_pos hmem]

theorem walk_again {s : Search} {n : Nat} (hn : n ∈ s.discovered) (stack : List Nat) :
    g.walk (n :: stack) s = g.walk stack (s.finish n) := by
  rw [walk, dif_neg (by rw [Search.isNew_iff]; exact not_not_intro hn)]

/-- The nodes are searched from one after the other. -/
theorem Walks.cons {s : Search} {n : Nat} {rest : List Nat} (hn : g.Walks s [n])
    (hrest : ∀ s', s'.Sound g → s.Extends s' → g.Walks s' rest) : g.Walks s (n :: rest) := by
  cases hn with
  | broken self walk => exact .broken self fun stack => walk (rest ++ stack)
  | @done s₁ sound₁ extends₁ discovered₁ walk₁ =>
    have hwalk (stack : List Nat) : g.walk (n :: rest ++ stack) s = g.walk (rest ++ stack) s₁ :=
      walk₁ (rest ++ stack)
    cases hrest s₁ sound₁ extends₁ with
    | broken self walk => exact .broken self fun stack => (hwalk stack).trans (walk stack)
    | @done s₂ sound₂ extends₂ discovered₂ walk₂ =>
      refine .done sound₂ (extends₁.trans extends₂) (fun m hm => ?_)
        fun stack => (hwalk stack).trans (walk₂ stack)
      rcases List.mem_cons.1 hm with rfl | hm
      · exact extends₂.discovered m (discovered₁ m List.mem_cons_self)
      · exact discovered₂ m hm

/-- A node that stands on the stack a second time is passed. -/
theorem Walks.passed {s : Search} {n : Nat} (hs : s.Sound g) (hn : n ∈ s.discovered)
    (hclosed : ¬ s.Open n) : g.Walks s [n] := by
  have hfinished : n ∈ s.finished := Classical.byContradiction fun hf => hclosed ⟨hn, hf⟩
  apply Walks.done hs (.refl s) (fun m hm => List.mem_singleton.1 hm ▸ hn)
  intro stack
  rw [List.singleton_append, walk_again hn, Search.finish_of_mem hfinished]

/-- A new node is finished once all that it depends on is searched from. -/
theorem Walks.entered {s : Search} {n : Nat} (hs : s.Sound g) (hnew : n ∉ s.discovered)
    (hself : ¬ g.DependsOn n n) (hleads : ∀ m, s.Open m → ReflTransGen g.DependsOn m n)
    (h : g.Walks (s.discover n) ((g.dependencies n).filter (s.discover n).isNew)) :
    g.Walks s [n] := by
  have hwalk := fun stack => walk_new (Search.isNew_iff.2 hnew) hself stack
  have hopen₁ := hs.open_discover hnew
  cases h with
  | broken self walk => exact .broken self fun stack => (hwalk stack).trans (walk (n :: stack))
  | @done s₂ sound grows discovered walk =>
    have hn : s₂.Open n := (grows.isOpen n).2 ((hopen₁ n).2 (.inl rfl))
    have hsound : (s₂.finish n).Sound g := by
      apply sound.finish hn
      intro m hm
      by_cases hf : m ∈ s₂.finished
      · exact .inl hf
      have hm₂ : m ∈ s₂.discovered := by
        by_cases hnew : (s.discover n).isNew m
        · exact discovered m (List.mem_filter.2 ⟨mem_dependencies.2 hm, hnew⟩)
        · rw [Search.isNew_iff, not_not] at hnew
          exact grows.discovered m hnew
      -- A node that is open now was open when `n` was entered.
      rcases (hopen₁ m).1 ((grows.isOpen m).1 ⟨hm₂, hf⟩) with rfl | hm
      · exact .inr .refl
      · exact .inr (hleads m hm)
    have hclosed : ∀ m, (s₂.finish n).Open m ↔ s.Open m := by
      intro m
      rw [Search.open_finish hn, grows.isOpen, hopen₁]
      constructor
      · rintro ⟨hm, hne⟩
        exact hm.resolve_left hne
      · intro hm
        exact ⟨.inr hm, fun heq => hnew (heq ▸ hm.1)⟩
    have hdiscovered : (s₂.finish n).discovered = s₂.discovered := by
      rw [Search.finish_of_not_mem hn.2]
    refine .done hsound ⟨fun m hm => ?_, hclosed⟩ (fun m hm => ?_) fun stack => ?_
    · rw [hdiscovered]
      exact grows.discovered m (List.mem_cons_of_mem n hm)
    · rw [hdiscovered, List.mem_singleton.1 hm]
      exact hn.1
    · rw [List.singleton_append, hwalk, walk, walk_again hn.1]

theorem walks_all {s : Search} {nodes : List Nat} (hs : s.Sound g)
    (h : ∀ s', s'.Sound g → s.Extends s' → ∀ n ∈ nodes, g.Walks s' [n]) : g.Walks s nodes := by
  induction nodes generalizing s with
  | nil => exact .done hs (.refl s) (fun k hk => absurd hk List.not_mem_nil) fun _ => rfl
  | cons n rest ih =>
    apply Walks.cons (h s hs (.refl s) n List.mem_cons_self)
    intro s₁ hs₁ he₁
    exact ih hs₁ fun s₂ hs₂ he₂ m hm => h s₂ hs₂ (he₁.trans he₂) m (List.mem_cons_of_mem n hm)

/-- **A node on top of the stack is searched from, whatever stands below it.** The open nodes are
those on the way to it, and what is left to discover bounds how far the search goes. -/
theorem walks (hg : g.Bounded) {left : Nat} {s : Search} {n : Nat} (hs : s.Sound g)
    (hleft : g.size ≤ left + s.discovered.length) (hn : n < g.size) (hclosed : ¬ s.Open n)
    (hleads : ∀ m, s.Open m → ReflTransGen g.DependsOn m n) : g.Walks s [n] := by
  induction left generalizing s n with
  | zero =>
    by_cases hnew : n ∈ s.discovered
    · exact .passed hs hnew hclosed
    · have := hs.length_lt hn hnew
      omega
  | succ left ih =>
    by_cases hnew : n ∈ s.discovered
    · exact .passed hs hnew hclosed
    by_cases hself : g.DependsOn n n
    · exact .broken hself fun stack => walk_self (Search.isNew_iff.2 hnew) hself stack
    have hs₁ := hs.discover hn hnew hself
    refine .entered hs hnew hself hleads (walks_all hs₁ fun t ht he k hk => ?_)
    obtain ⟨hdep, hk⟩ := List.mem_filter.1 hk
    replace hdep := mem_dependencies.1 hdep
    have hlen : s.discovered.length + 1 ≤ t.discovered.length :=
      hs₁.discovered_nodup.length_le_of_subset he.discovered
    refine ih ht (by omega) (hg n k hdep).2 (fun hopen => ?_) fun m hm => ?_
    · exact Search.isNew_iff.1 hk ((he.isOpen k).1 hopen).1
    · rcases (hs.open_discover hnew m).1 ((he.isOpen m).1 hm) with rfl | hm
      · exact .single hdep
      · exact (hleads m hm).tail hdep

/-! ## Both searches -/

/-- A finished search of the whole graph: every node is finished, once. -/
structure Finished (g : DependencyGraph) (nodes : List Nat) : Prop where
  nodup : nodes.Nodup
  mem_iff : ∀ n, n ∈ nodes ↔ n < g.size
  irreflexive : ∀ n, ¬ g.DependsOn n n
  settled : ∀ late n early, nodes = late ++ n :: early →
    ∀ m, g.DependsOn n m → m ∈ early ∨ ReflTransGen g.DependsOn m n

/-- Between the searches no node is open. -/
theorem search_cases (hg : g.Bounded) {s : Search} {n : Nat} (hs : s.Sound g)
    (hclosed : ∀ m, ¬ s.Open m) (hn : n < g.size) :
    (∃ k, g.DependsOn k k ∧ g.search s n = .error k) ∨
      ∃ s', g.search s n = .ok s' ∧ s'.Sound g ∧ s.Extends s' ∧ n ∈ s'.discovered := by
  unfold search
  by_cases hnew : s.isNew n
  · rw [if_pos hnew]
    rcases walks hg hs (Nat.le_add_right _ _) hn (hclosed n) fun m hm => absurd hm (hclosed m) with
      ⟨self, walk⟩ | ⟨sound, grows, discovered, walk⟩
    · exact .inl ⟨_, self, walk []⟩
    · refine .inr ⟨_, (walk []).trans ?_, sound, grows, discovered n List.mem_cons_self⟩
      rw [DependencyGraph.walk]
  · rw [if_neg hnew]
    exact .inr ⟨s, rfl, hs, .refl s, not_not.1 (mt Search.isNew_iff.2 hnew)⟩

theorem searches_cases (hg : g.Bounded) {nodes : List Nat} (hnodes : ∀ n ∈ nodes, n < g.size)
    {s : Search} (hs : s.Sound g) (hclosed : ∀ m, ¬ s.Open m) :
    (∃ k, g.DependsOn k k ∧ nodes.foldlM g.search s = .error k) ∨
      ∃ s', nodes.foldlM g.search s = .ok s' ∧ s'.Sound g ∧ s.Extends s' ∧
        ∀ n ∈ nodes, n ∈ s'.discovered := by
  induction nodes generalizing s with
  | nil => exact .inr ⟨s, rfl, hs, .refl s, fun n hn => absurd hn List.not_mem_nil⟩
  | cons n rest ih =>
    rw [List.foldlM_cons]
    rcases search_cases hg hs hclosed (hnodes n List.mem_cons_self) with
      ⟨k, hk, hrun⟩ | ⟨s₁, hrun, hs₁, he₁, hn⟩
    · exact .inl ⟨k, hk, by rw [hrun]; rfl⟩
    rw [hrun]
    have hclosed₁ (m : Nat) : ¬ s₁.Open m := fun hm => hclosed m ((he₁.isOpen m).1 hm)
    rcases ih (fun m hm => hnodes m (List.mem_cons_of_mem n hm)) hs₁ hclosed₁ with
      ⟨k, hk, hrun⟩ | ⟨s₂, hrun, hs₂, he₂, hrest⟩
    · exact .inl ⟨k, hk, hrun⟩
    · refine .inr ⟨s₂, hrun, hs₂, he₁.trans he₂, fun m hm => ?_⟩
      rcases List.mem_cons.1 hm with rfl | hm
      · exact he₂.discovered m hn
      · exact hrest m hm

theorem finishOrder_cases (hg : g.Bounded) :
    (∃ k, g.DependsOn k k ∧ g.finishOrder = .error k) ∨
      ∃ nodes, g.finishOrder = .ok nodes ∧ g.Finished nodes := by
  have hstart : ({} : Search).Sound g :=
    ⟨by simp, List.nodup_nil, List.nodup_nil, by simp, by simp, by simp⟩
  have hnone (m : Nat) : ¬ ({} : Search).Open m := fun hm => absurd hm.1 List.not_mem_nil
  have hrange : ∀ n ∈ List.range g.size, n < g.size := fun n => List.mem_range.1
  unfold finishOrder
  rcases searches_cases hg hrange hstart hnone with
    ⟨k, hk, hrun⟩ | ⟨s, hrun, hs, he, hall⟩
  · exact .inl ⟨k, hk, by rw [hrun]; rfl⟩
  · refine .inr ⟨s.finished, by rw [hrun]; rfl, hs.finished_nodup, fun n => ?_, fun n hn => ?_,
      hs.settled⟩
    · constructor
      · intro hn
        exact hs.bounded n (hs.finished_discovered n hn)
      · intro hn
        have hd := hall n (List.mem_range.2 hn)
        exact Classical.byContradiction fun hf => hnone n ((he.isOpen n).1 ⟨hd, hf⟩)
    · exact hs.irreflexive n (hall n (List.mem_range.2 (hg n n hn).1)) hn

theorem visitNext_new {visited stack : List Nat} {n : Nat} (hn : n ∉ visited) :
    g.visitNext visited (n :: stack) =
      some (n, n :: visited, (g.dependents n).filter (!(n :: visited).contains ·) ++ stack) := by
  rw [visitNext, if_neg (by simpa using hn), push_eq]

/-- From a node that is not visited yet, the search goes on to the first of its dependents that is
not. -/
theorem second?_cons {visited rest : List Nat} {n : Nat} (hn : n ∉ visited) :
    g.second? visited (n :: rest) =
      match (g.dependents n).find? (!(n :: visited).contains ·) with
      | some d => some d
      | none => g.second? (n :: visited) rest := by
  rw [second?, visitNext_new hn, List.append_nil, ← List.head?_filter]
  cases hnext : (g.dependents n).filter (!(n :: visited).contains ·) with
  | nil => rfl
  | cons d stack =>
    have hmem : d ∈ (g.dependents n).filter (!(n :: visited).contains ·) := by
      rw [hnext]
      exact List.mem_cons_self
    have hd : d ∉ n :: visited := by simpa using (List.mem_filter.1 hmem).2
    dsimp only
    rw [visitNext_new hd]
    rfl

/-- From a node that is visited already no search is made. -/
theorem second?_passed {visited rest : List Nat} {n : Nat} (hn : n ∈ visited) :
    g.second? visited (n :: rest) = g.second? visited rest := by
  have hn' : visited.contains n = true := by simpa using hn
  rw [second?, visitNext, if_pos hn', visitNext]

theorem second?_eq_some {visited nodes : List Nat} {d : Nat} (h : g.second? visited nodes = some d) :
    ∃ before n after, nodes = before ++ n :: after ∧ g.DependsOn d n ∧ d ≠ n ∧ d ∉ before ∧
      d ∉ visited := by
  induction nodes generalizing visited with
  | nil => cases h
  | cons n rest ih =>
    by_cases hn : n ∈ visited
    · rw [second?_passed hn] at h
      obtain ⟨before, m, after, rfl, hdep, hne, hb, hs⟩ := ih h
      refine ⟨n :: before, m, after, rfl, hdep, hne, ?_, hs⟩
      rw [List.mem_cons, not_or]
      exact ⟨fun heq => hs (heq ▸ hn), hb⟩
    rw [second?_cons hn] at h
    split at h
    · rename_i d' hfind
      obtain rfl := Option.some.inj h
      have hmem := mem_dependents.1 (List.mem_of_find?_eq_some hfind)
      have hp := List.find?_some hfind
      simp only [Bool.not_eq_true', List.contains_eq_mem, decide_eq_false_iff_not, List.mem_cons,
        not_or] at hp
      exact ⟨[], n, rest, rfl, hmem, hp.1, List.not_mem_nil, hp.2⟩
    · obtain ⟨before, m, after, rfl, hdep, hne, hb, hs⟩ := ih h
      refine ⟨n :: before, m, after, rfl, hdep, hne, ?_, ?_⟩
      · rw [List.mem_cons, not_or]
        exact ⟨fun heq => hs (heq ▸ List.mem_cons_self), hb⟩
      · exact fun hd => hs (List.mem_cons_of_mem n hd)

theorem second?_eq_none {visited nodes : List Nat} (h : g.second? visited nodes = none)
    (hnew : ∀ n ∈ nodes, n ∉ visited) (hnodup : nodes.Nodup) {before after : List Nat} {n : Nat}
    (hn : nodes = before ++ n :: after) {d : Nat} (hd : g.DependsOn d n) :
    d = n ∨ d ∈ before ∨ d ∈ visited := by
  induction nodes generalizing visited before with
  | nil => simp at hn
  | cons k rest ih =>
    rw [second?_cons (hnew k List.mem_cons_self)] at h
    split at h
    · cases h
    rename_i hfind
    obtain ⟨hk, hnodup⟩ := List.nodup_cons.1 hnodup
    cases before with
    | nil =>
      obtain ⟨rfl, rfl⟩ := List.cons.inj hn
      have hp := List.find?_eq_none.1 hfind d (mem_dependents.2 hd)
      simp only [Bool.not_eq_true', List.contains_eq_mem, decide_eq_false_iff_not, not_not] at hp
      exact (List.mem_cons.1 hp).imp id .inr
    | cons l before =>
      obtain ⟨rfl, hrest⟩ := List.cons.inj hn
      have hnew' : ∀ m ∈ rest, m ∉ k :: visited := by
        intro m hm
        rw [List.mem_cons, not_or]
        exact ⟨fun heq => hk (heq ▸ hm), hnew m (List.mem_cons_of_mem k hm)⟩
      rcases ih h hnew' hnodup hrest with heq | hb | hs
      · exact .inl heq
      · exact .inr (.inl (List.mem_cons_of_mem k hb))
      · rcases List.mem_cons.1 hs with rfl | hs
        · exact .inr (.inl List.mem_cons_self)
        · exact .inr (.inr hs)

theorem finished_of_finishOrder (hg : g.Bounded) {nodes : List Nat} (h : g.finishOrder = .ok nodes) :
    g.Finished nodes := by
  rcases finishOrder_cases hg with ⟨k, -, hrun⟩ | ⟨nodes', hrun, hfinished⟩
  · cases hrun.symm.trans h
  · obtain rfl := Except.ok.inj (hrun.symm.trans h)
    exact hfinished

/-- **The node that is named lies on a cycle.** A node that is finished although one that it depends
on is not was entered from that one. -/
theorem order_error (hg : g.Bounded) {d : Nat} (h : g.order = .error d) : g.OnCycle d := by
  rcases except_bind_eq_error.1 h with hfinish | ⟨nodes, hfinish, hplace⟩
  · rcases finishOrder_cases hg with ⟨k, hself, hrun⟩ | ⟨nodes, hrun, -⟩
    · obtain rfl := Except.error.inj (hrun.symm.trans hfinish)
      exact .single hself
    · cases hrun.symm.trans hfinish
  · have hnodes := finished_of_finishOrder hg hfinish
    split at hplace
    · rename_i k hk
      obtain rfl : k = d := Except.error.inj hplace
      obtain ⟨before, n, after, hsplit, hdep, hne, hb, -⟩ := second?_eq_some hk
      -- `k` is finished before `n`, on which it depends, so `n` leads to `k`.
      have hmem : k ∈ after := by
        have hk := (hnodes.mem_iff k).2 (hg k n hdep).1
        rw [hsplit, List.mem_append, List.mem_cons] at hk
        exact (hk.resolve_left hb).resolve_left hne
      obtain ⟨mid, early, rfl⟩ := List.append_of_mem hmem
      have hsplit' : nodes = (before ++ n :: mid) ++ k :: early := by
        rw [hsplit, List.append_assoc, List.cons_append]
      rcases hnodes.settled _ k early hsplit' n hdep with hearly | hback
      · have hnd := hnodes.nodup
        rw [hsplit] at hnd
        have hnotin := (List.nodup_cons.1 (List.nodup_append.1 hnd).2.1).1
        exact absurd (List.mem_append_right _ (List.mem_cons_of_mem k hearly)) hnotin
      · exact TransGen.head' hdep hback
    · cases hplace

/-- The order holds every node once, and each after all that it depends on. -/
structure Ordered (g : DependencyGraph) (nodes : List Nat) : Prop where
  nodup : nodes.Nodup
  mem_iff : ∀ n, n ∈ nodes ↔ n < g.size
  before : ∀ before n after, nodes = before ++ n :: after → ∀ m, g.DependsOn n m → m ∈ before

theorem order_ok (hg : g.Bounded) {nodes : List Nat} (h : g.order = .ok nodes) : g.Ordered nodes := by
  obtain ⟨finished, hfinish, hplace⟩ := except_bind_eq_ok.1 h
  have hf := finished_of_finishOrder hg hfinish
  split at hplace
  · cases hplace
  rename_i hnone
  obtain rfl : finished.reverse = nodes := Except.ok.inj hplace
  refine ⟨List.nodup_reverse.2 hf.nodup, fun n => List.mem_reverse.trans (hf.mem_iff n), ?_⟩
  intro before n after hsplit m hdep
  have hm : m ∈ finished.reverse := List.mem_reverse.2 ((hf.mem_iff m).2 (hg n m hdep).2)
  rw [hsplit, List.mem_append, List.mem_cons] at hm
  rcases hm with hm | rfl | hm
  · exact hm
  · exact absurd hdep (hf.irreflexive m)
  · -- If `m` stood after `n` here, `n` would have finished after `m`, which is misplaced.
    obtain ⟨mid, last, rfl⟩ := List.append_of_mem hm
    have hback : finished = last.reverse ++ m :: (mid.reverse ++ n :: before.reverse) := by
      rw [← List.reverse_reverse finished, hsplit]
      simp
    have hnd := hf.nodup
    rw [hback] at hnd
    obtain ⟨-, htail, hdisj⟩ := List.nodup_append.1 hnd
    have hn : n ∈ m :: (mid.reverse ++ n :: before.reverse) := by simp
    rcases second?_eq_none hnone (fun _ _ => List.not_mem_nil) hf.nodup hback hdep with
      rfl | hlast | hseen
    · exact absurd hdep (hf.irreflexive n)
    · exact absurd rfl (hdisj n hlast n hn)
    · exact absurd hseen List.not_mem_nil

/-- What a node leads to stands before it. -/
theorem Ordered.before_of_transGen {nodes before after : List Nat} {n m : Nat} (h : g.Ordered nodes)
    (hsplit : nodes = before ++ n :: after) (hreach : TransGen g.DependsOn n m) : m ∈ before := by
  induction hreach with
  | single hdep => exact h.before before n after hsplit _ hdep
  | tail _ hdep ih =>
    obtain ⟨first, rest, rfl⟩ := List.append_of_mem ih
    have hk := h.before first _ (rest ++ n :: after) (by simpa using hsplit) _ hdep
    exact List.mem_append_left _ hk

theorem Ordered.acyclic (hg : g.Bounded) {nodes : List Nat} (h : g.Ordered nodes) (n : Nat) :
    ¬ g.OnCycle n := by
  intro hcycle
  obtain ⟨m, hdep, -⟩ := TransGen.head'_iff.1 hcycle
  obtain ⟨before, after, hsplit⟩ := List.append_of_mem ((h.mem_iff n).2 (hg n m hdep).1)
  have hn := h.before_of_transGen hsplit hcycle
  have hnd := h.nodup
  rw [hsplit] at hnd
  exact absurd rfl ((List.nodup_append.1 hnd).2.2 n hn n List.mem_cons_self)

/-- **There is no order exactly when there is a cycle.** -/
theorem order_eq_error_iff (hg : g.Bounded) : (∃ d, g.order = .error d) ↔ ∃ n, g.OnCycle n := by
  constructor
  · rintro ⟨d, h⟩
    exact ⟨d, order_error hg h⟩
  · rintro ⟨n, hcycle⟩
    cases h : g.order with
    | error d => exact ⟨d, rfl⟩
    | ok nodes => exact absurd hcycle ((order_ok hg h).acyclic hg n)

end DependencyGraph

end SymbolAtlas
