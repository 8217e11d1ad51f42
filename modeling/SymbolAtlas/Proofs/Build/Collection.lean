import SymbolAtlas.Proofs.Build.Demand

/-!
# Collecting libraries

What the collection of libraries keeps while demands are met one after the other, and that no demand
is left when it ends:

* `Collected`: every demand that was made is waiting or met, every library was asked for by a first
  demand or by a library found before it, and the edges are the dependencies among the libraries;
* `Collected.meet`: meeting the demand that is next keeps it;
* `collect_ok`: the step bound is enough, for there are no more libraries than first demands and
  names in the manifests of the tree.
-/

namespace SymbolAtlas

open Files

namespace DependencyGraph

variable {g : DependencyGraph}

theorem dependsOn_addEdge {a b x y : Nat} :
    (g.addEdge a b).DependsOn x y ↔ g.DependsOn x y ∨ x = a ∧ y = b := by
  unfold addEdge DependsOn
  split
  · rename_i h
    constructor
    · exact .inl
    · rintro (h | ⟨rfl, rfl⟩)
      · exact h
      · simpa using h
  · simp

@[simp] theorem size_addEdge (g : DependencyGraph) (a b : Nat) : (g.addEdge a b).size = g.size := by
  unfold addEdge
  split <;> rfl

end DependencyGraph

namespace LibraryCollection

variable {c : LibraryCollection}

@[simp] theorem libraries_link (c : LibraryCollection) (dependent : Option Nat) (n : Nat) :
    (c.link dependent n).libraries = c.libraries := by
  cases dependent <;> rfl

@[simp] theorem demands_link (c : LibraryCollection) (dependent : Option Nat) (n : Nat) :
    (c.link dependent n).demands = c.demands := by
  cases dependent <;> rfl

@[simp] theorem size_link (c : LibraryCollection) (dependent : Option Nat) (n : Nat) :
    (c.link dependent n).graph.size = c.graph.size := by
  cases dependent with
  | none => rfl
  | some d => exact c.graph.size_addEdge d n

theorem dependsOn_link {dependent : Option Nat} {n a b : Nat} :
    (c.link dependent n).graph.DependsOn a b ↔
      c.graph.DependsOn a b ∨ dependent = some a ∧ b = n := by
  cases dependent with
  | none => simp [link]
  | some d =>
    rw [link, DependencyGraph.dependsOn_addEdge, Option.some.injEq]
    exact or_congr_right (and_congr_left fun _ => eq_comm)

theorem number?_eq_some {name : String} {n : Nat} (h : c.number? name = some n) :
    ∃ l, c.libraries[n]? = some l ∧ l.name = name := by
  obtain ⟨hn, hname, -⟩ := List.findIdx?_eq_some_iff_getElem.1 h
  exact ⟨c.libraries[n], List.getElem?_eq_getElem hn, by simpa using hname⟩

theorem number?_eq_none {name : String} (h : c.number? name = none) :
    ∀ l ∈ c.libraries, l.name ≠ name := by
  intro l hl
  simpa using List.findIdx?_eq_none_iff.1 h l hl

def demandsOf (n : Nat) (l : ResolvedLibrary) : List LibraryDemand :=
  l.manifest.depends.map fun name => { requested := name, dependent := some n }

theorem enter_eq (c : LibraryCollection) (l : ResolvedLibrary) (dependent : Option Nat) :
    (∃ n, c.number? l.name = some n ∧ c.enter l dependent = c.link dependent n) ∨
      c.number? l.name = none ∧ c.enter l dependent =
        (⟨c.libraries ++ [l], c.graph.addNode, demandsOf c.libraries.length l ++ c.demands⟩ :
          LibraryCollection).link dependent c.libraries.length := by
  unfold enter
  cases h : c.number? l.name with
  | some n => exact .inl ⟨n, rfl, rfl⟩
  | none => exact .inr ⟨rfl, rfl⟩

/-- The demand `d` is met: it is left out, or the library that it opens is there by its name, and is
a dependency of the library that made the demand. -/
def Met (s : LibrarySearch) (t : Tree) (c : LibraryCollection) (d : LibraryDemand) : Prop :=
  s.answer t d = .ok none ∨
    ∃ l n k, s.answer t d = .ok (some l) ∧ c.libraries[n]? = some k ∧ k.name = l.name ∧
      ∀ a, d.dependent = some a → c.graph.DependsOn a n

/-- Nothing that is there is lost in `c'`. -/
structure Grows (c c' : LibraryCollection) : Prop where
  libraries : c.libraries <+: c'.libraries
  graph : ∀ a b, c.graph.DependsOn a b → c'.graph.DependsOn a b

/-- An item of a list with one more item is an older one or the new one. -/
theorem getElem?_concat_cases {α : Type} {items : List α} {a b : α} {n : Nat}
    (h : (items ++ [a])[n]? = some b) : items[n]? = some b ∨ n = items.length ∧ b = a := by
  rcases Nat.lt_trichotomy n items.length with hlt | rfl | hgt
  · exact .inl (List.getElem?_append_left hlt ▸ h)
  · rw [List.getElem?_concat_length] at h
    exact .inr ⟨rfl, (Option.some.inj h).symm⟩
  · rw [List.getElem?_eq_none (by rw [List.length_append, List.length_singleton]; omega)] at h
    cases h

theorem Grows.getElem? {c' : LibraryCollection} (h : c.Grows c') {n : Nat} {l : ResolvedLibrary}
    (hn : c.libraries[n]? = some l) : c'.libraries[n]? = some l := by
  obtain ⟨more, hmore⟩ := h.libraries
  rw [← hmore, List.getElem?_append_left (List.getElem?_eq_some_iff.1 hn).1, hn]

theorem Met.mono {s : LibrarySearch} {t : Tree} {c' : LibraryCollection} {d : LibraryDemand}
    (hc : c.Grows c') (h : Met s t c d) : Met s t c' d := by
  rcases h with h | ⟨l, n, k, ha, hn, hname, hdep⟩
  · exact .inl h
  · exact .inr ⟨l, n, k, ha, hc.getElem? hn, hname, fun a hd => hc.graph a n (hdep a hd)⟩

/-- What the collection of libraries keeps. `first` are the demands that it began with. -/
structure Collected (s : LibrarySearch) (t : Tree) (first : List LibraryDemand)
    (c : LibraryCollection) : Prop where
  distinct : (c.libraries.map (·.name)).Nodup
  size : c.graph.size = c.libraries.length
  edges : ∀ a b, c.graph.DependsOn a b → ∃ k j, c.libraries[a]? = some k ∧ c.libraries[b]? = some j ∧
    ∃ d ∈ demandsOf a k, ∃ l, s.answer t d = .ok (some l) ∧ l.name = j.name
  waiting : ∀ d ∈ c.demands, d ∈ first ∨ ∃ a k, c.libraries[a]? = some k ∧ d ∈ demandsOf a k
  requested : ∀ d ∈ first, d ∈ c.demands ∨ Met s t c d
  listed : ∀ a k, c.libraries[a]? = some k → ∀ d ∈ demandsOf a k, d ∈ c.demands ∨ Met s t c d
  origin : ∀ b l, c.libraries[b]? = some l → ∃ d, s.answer t d = .ok (some l) ∧
    (d ∈ first ∨ ∃ a k, a < b ∧ c.libraries[a]? = some k ∧ d ∈ demandsOf a k)

variable {s : LibrarySearch} {t : Tree} {first : List LibraryDemand}

/-- With nothing found so far, every demand is waiting. -/
theorem Collected.start (s : LibrarySearch) (t : Tree) (first : List LibraryDemand) :
    Collected s t first { demands := first } where
  distinct := List.nodup_nil
  size := rfl
  edges := fun a b hab => absurd hab List.not_mem_nil
  waiting := fun d hd => .inl hd
  requested := fun d hd => .inl hd
  listed := fun a k hk => by simp at hk
  origin := fun b l hl => by simp at hl

/-- When the demand that is next is met, the demands that were waiting or met are so still. -/
theorem settle {c' : LibraryCollection} {d d' : LibraryDemand} {rest : List LibraryDemand}
    (hc : c.Grows c') (hd : c.demands = d :: rest) (hsub : rest ⊆ c'.demands) (hmet : Met s t c' d)
    (h : d' ∈ c.demands ∨ Met s t c d') : d' ∈ c'.demands ∨ Met s t c' d' := by
  rcases h with h | h
  · rw [hd] at h
    rcases List.mem_cons.1 h with rfl | h
    · exact .inr hmet
    · exact .inl (hsub h)
  · exact .inr (h.mono hc)

theorem dependent_of_mem_demandsOf {n : Nat} {l : ResolvedLibrary} {d : LibraryDemand}
    (h : d ∈ demandsOf n l) : d.dependent = some n := by
  obtain ⟨name, -, rfl⟩ := List.mem_map.1 h
  rfl

/-- A demand that waits was made by the library that its answer is linked to. -/
theorem Collected.maker {d : LibraryDemand} (h : Collected s t first c) (hd : d ∈ c.demands)
    (hfirst : ∀ d ∈ first, d.dependent = none) {a : Nat} (ha : d.dependent = some a) :
    ∃ k, c.libraries[a]? = some k ∧ d ∈ demandsOf a k := by
  rcases h.waiting d hd with hd | ⟨b, k, hk, hd⟩
  · rw [hfirst d hd] at ha
    cases ha
  · obtain rfl := Option.some.inj (ha.symm.trans (dependent_of_mem_demandsOf hd))
    exact ⟨k, hk, hd⟩

section
variable {c' : LibraryCollection} {d : LibraryDemand} {rest : List LibraryDemand}

/-- The demand that is next is met without a new library. -/
theorem Collected.meetOld (h : Collected s t first c) (hd : c.demands = d :: rest)
    (hlib : c'.libraries = c.libraries) (hdem : c'.demands = rest)
    (hsize : c'.graph.size = c.graph.size) (hgrows : c.Grows c') (hmet : Met s t c' d)
    (hnew : ∀ a b, c'.graph.DependsOn a b → c.graph.DependsOn a b ∨
      ∃ k j l, c.libraries[a]? = some k ∧ c.libraries[b]? = some j ∧ d ∈ demandsOf a k ∧
        s.answer t d = .ok (some l) ∧ l.name = j.name) :
    Collected s t first c' := by
  have hrest : rest ⊆ c'.demands := hdem ▸ List.Subset.refl _
  refine
    { distinct := by rw [hlib]; exact h.distinct
      size := by rw [hsize, hlib, h.size]
      edges := ?_
      waiting := ?_
      requested := fun d' hd' => settle hgrows hd hrest hmet (h.requested d' hd')
      listed := ?_
      origin := by rw [hlib]; exact h.origin }
  · intro a b hab
    rw [hlib]
    rcases hnew a b hab with hab | ⟨k, j, l, hk, hj, hmem, ha, hname⟩
    · exact h.edges a b hab
    · exact ⟨k, j, hk, hj, d, hmem, l, ha, hname⟩
  · intro d' hd'
    rw [hlib]
    exact h.waiting d' (hd ▸ List.mem_cons_of_mem d (hdem ▸ hd'))
  · intro a k hk d' hd'
    rw [hlib] at hk
    exact settle hgrows hd hrest hmet (h.listed a k hk d' hd')

/-- The demand that is next opens a library `l` with a new name. -/
theorem Collected.meetNew {l : ResolvedLibrary} (h : Collected s t first c)
    (hfirst : ∀ d ∈ first, d.dependent = none) (hd : c.demands = d :: rest)
    (ha : s.answer t d = .ok (some l)) (hn : c.number? l.name = none)
    (hlib : c'.libraries = c.libraries ++ [l])
    (hdem : c'.demands = demandsOf c.libraries.length l ++ rest)
    (hsize : c'.graph.size = c.graph.size + 1)
    (hdep : ∀ a b, c'.graph.DependsOn a b ↔
      c.graph.DependsOn a b ∨ d.dependent = some a ∧ b = c.libraries.length) :
    Collected s t first c' := by
  have hgrows : c.Grows c' :=
    ⟨hlib ▸ List.prefix_append _ _, fun a b hab => (hdep a b).2 (.inl hab)⟩
  have hlast : c'.libraries[c.libraries.length]? = some l := by
    rw [hlib, List.getElem?_concat_length]
  have hmet : Met s t c' d :=
    .inr ⟨l, _, l, ha, hlast, rfl, fun a hda => (hdep a _).2 (.inr ⟨hda, rfl⟩)⟩
  have hnext : d ∈ c.demands := hd ▸ List.mem_cons_self
  have hrest : rest ⊆ c'.demands := hdem ▸ List.subset_append_right _ _
  refine
    { distinct := ?_
      size := by rw [hsize, hlib, h.size, List.length_append, List.length_singleton]
      edges := ?_
      waiting := ?_
      requested := fun d' hd' => settle hgrows hd hrest hmet (h.requested d' hd')
      listed := ?_
      origin := ?_ }
  · rw [hlib, List.map_append, List.map_singleton]
    refine List.nodup_append.2 ⟨h.distinct, by simp, ?_⟩
    intro name hname other hother heq
    obtain ⟨k, hk, rfl⟩ := List.mem_map.1 hname
    exact number?_eq_none hn k hk (heq.trans (List.mem_singleton.1 hother))
  · intro a b hab
    rcases (hdep a b).1 hab with hab | ⟨hda, rfl⟩
    · obtain ⟨k, j, hk, hj, hd⟩ := h.edges a b hab
      exact ⟨k, j, hgrows.getElem? hk, hgrows.getElem? hj, hd⟩
    · obtain ⟨k, hk, hmem⟩ := h.maker hnext hfirst hda
      exact ⟨k, l, hgrows.getElem? hk, hlast, d, hmem, l, ha, rfl⟩
  · intro d' hd'
    rw [hdem] at hd'
    rcases List.mem_append.1 hd' with hd' | hd'
    · exact .inr ⟨_, l, hlast, hd'⟩
    · rcases h.waiting d' (hd ▸ List.mem_cons_of_mem d hd') with hd' | ⟨a, k, hk, hd'⟩
      · exact .inl hd'
      · exact .inr ⟨a, k, hgrows.getElem? hk, hd'⟩
  · intro a k hk d' hd'
    rcases getElem?_concat_cases (hlib ▸ hk) with hk | ⟨rfl, rfl⟩
    · exact settle hgrows hd hrest hmet (h.listed a k hk d' hd')
    · exact .inl (hdem ▸ List.mem_append_left _ hd')
  · intro b k hk
    rcases getElem?_concat_cases (hlib ▸ hk) with hk | ⟨rfl, rfl⟩
    · obtain ⟨d', ha', hd'⟩ := h.origin b k hk
      refine ⟨d', ha', hd'.imp id ?_⟩
      rintro ⟨a, j, hab, hj, hmem⟩
      exact ⟨a, j, hab, hgrows.getElem? hj, hmem⟩
    · refine ⟨d, ha, ?_⟩
      rcases h.waiting d hnext with hd' | ⟨a, j, hj, hmem⟩
      · exact .inl hd'
      · exact .inr ⟨a, j, (List.getElem?_eq_some_iff.1 hj).1, hgrows.getElem? hj, hmem⟩

/-- Meeting the demand that is next keeps what is collected, and either uses up the demand or takes
in one more library. -/
theorem Collected.meet (h : Collected s t first c) (hfirst : ∀ d ∈ first, d.dependent = none)
    (hd : c.demands = d :: rest) (hm : s.meet t { c with demands := rest } d = .ok c') :
    Collected s t first c' ∧
      (c'.libraries = c.libraries ∧ c'.demands = rest ∨
        ∃ l, s.Opens t d l ∧ c'.libraries = c.libraries ++ [l] ∧
          c'.demands = demandsOf c.libraries.length l ++ rest) := by
  obtain ⟨r, ha, hm⟩ := except_bind_eq_ok.1 hm
  let c₀ : LibraryCollection := { c with demands := rest }
  have hnext : d ∈ c.demands := hd ▸ List.mem_cons_self
  cases r with
  | none =>
    obtain rfl : c₀ = c' := Except.ok.inj hm
    have hgrows : c.Grows c₀ := ⟨List.prefix_rfl, fun _ _ => id⟩
    exact ⟨h.meetOld hd rfl rfl rfl hgrows (.inl ha) fun _ _ => .inl, .inl ⟨rfl, rfl⟩⟩
  | some l =>
    obtain rfl : c₀.enter l d.dependent = c' := Except.ok.inj hm
    rcases c₀.enter_eq l d.dependent with ⟨n, hn, heq⟩ | ⟨hn, heq⟩
    · rw [heq]
      obtain ⟨j, hj, hname⟩ := number?_eq_some hn
      have hlib : (c₀.link d.dependent n).libraries = c.libraries := libraries_link _ _ _
      have hdem : (c₀.link d.dependent n).demands = rest := demands_link _ _ _
      have hgrows : c.Grows (c₀.link d.dependent n) :=
        ⟨hlib ▸ List.prefix_rfl, fun a b hab => dependsOn_link.2 (.inl hab)⟩
      have hmet : Met s t (c₀.link d.dependent n) d := .inr ⟨l, n, j, ha, hgrows.getElem? hj, hname,
        fun a hda => dependsOn_link.2 (.inr ⟨hda, rfl⟩)⟩
      refine ⟨h.meetOld hd hlib hdem (size_link _ _ _) hgrows hmet ?_, .inl ⟨hlib, hdem⟩⟩
      intro a b hab
      rcases dependsOn_link.1 hab with hab | ⟨hda, rfl⟩
      · exact .inl hab
      · obtain ⟨k, hk, hmem⟩ := h.maker hnext hfirst hda
        exact .inr ⟨k, j, l, hk, hj, hmem, ha, hname.symm⟩
    · rw [heq]
      have hopen : s.Opens t d l := (LibrarySearch.answer_eq_some.1 ha).2.1
      exact ⟨h.meetNew hfirst hd ha hn (libraries_link _ _ _) (demands_link _ _ _)
          (size_link _ _ _) fun _ _ => dependsOn_link,
        .inr ⟨l, hopen, libraries_link _ _ _, demands_link _ _ _⟩⟩

/-! ## The step bound -/

/-- The demands that say all that can be answered: the first ones, and the bare names that stand in
a manifest of the tree. -/
def answerable (t : Tree) (first : List LibraryDemand) : List LibraryDemand :=
  first ++ (LibrarySearch.namesIn t).map fun name => { requested := name }

/-- The name of the library that answers a demand. -/
def answerName? (s : LibrarySearch) (t : Tree) (d : LibraryDemand) : Option String :=
  (s.answer t d).toOption.join.map (·.name)

theorem answerName?_eq_some {l : ResolvedLibrary} (h : s.answer t d = .ok (some l)) :
    answerName? s t d = some l.name := by
  rw [answerName?, h]
  rfl

/-- The most libraries there can be: each is the answer to one of the demands that can be answered. -/
theorem Collected.length_le (h : Collected s t first c) :
    c.libraries.length ≤ first.length + (LibrarySearch.namesIn t).length := by
  have hsub : c.libraries.map (·.name) ⊆ (answerable t first).filterMap (answerName? s t) := by
    intro name hname
    obtain ⟨l, hl, rfl⟩ := List.mem_map.1 hname
    obtain ⟨b, hb⟩ := List.getElem?_of_mem hl
    obtain ⟨d, ha, hd⟩ := h.origin b l hb
    rcases hd with hd | ⟨a, k, -, hk, hd⟩
    · exact List.mem_filterMap.2 ⟨d, List.mem_append_left _ hd, answerName?_eq_some ha⟩
    · -- The demand of a library is answered as the bare name is.
      obtain ⟨e, he, rfl⟩ := List.mem_map.1 hd
      obtain ⟨d', ha', -⟩ := h.origin a k hk
      have hin := (LibrarySearch.depends_sublist (LibrarySearch.answer_eq_some.1 ha').2.1).subset he
      refine List.mem_filterMap.2 ⟨{ requested := e }, ?_, answerName?_eq_some ha⟩
      exact List.mem_append_right _ (List.mem_map_of_mem hin)
  have hlen := h.distinct.length_le_of_subset hsub
  have hfilter := List.length_filterMap_le (answerName? s t) (answerable t first)
  simp only [List.length_map, answerable, List.length_append] at hlen hfilter ⊢
  omega

def stepsLeft (t : Tree) (first : List LibraryDemand) (c : LibraryCollection) : Nat :=
  let names := (LibrarySearch.namesIn t).length
  c.demands.length + (first.length + names - c.libraries.length) * names

theorem Collected.meetAll {steps : Nat} (h : Collected s t first c)
    (hfirst : ∀ d ∈ first, d.dependent = none) (hsteps : stepsLeft t first c ≤ steps)
    (hm : s.meetAll t steps c = .ok c') : Collected s t first c' ∧ c'.demands = [] := by
  induction steps generalizing c with
  | zero =>
    obtain rfl := Except.ok.inj hm
    refine ⟨h, List.length_eq_zero_iff.1 ?_⟩
    simp only [stepsLeft] at hsteps
    omega
  | succ steps ih =>
    rw [LibrarySearch.meetAll] at hm
    split at hm
    · rename_i hnone
      obtain rfl := Except.ok.inj hm
      exact ⟨h, hnone⟩
    rename_i d rest hd
    obtain ⟨c₁, hmeet, hrest⟩ := except_bind_eq_ok.1 hm
    obtain ⟨h₁, hcase⟩ := h.meet hfirst hd hmeet
    refine ih h₁ ?_ hrest
    simp only [stepsLeft, hd, List.length_cons] at hsteps ⊢
    rcases hcase with ⟨hlib, hdem⟩ | ⟨l, hopen, hlib, hdem⟩
    · rw [hlib, hdem]
      omega
    · have hroom := h₁.length_le
      have hlist := (LibrarySearch.depends_sublist hopen).length_le
      rw [hlib, List.length_append, List.length_singleton] at hroom ⊢
      rw [hdem, List.length_append, demandsOf, List.length_map]
      generalize (LibrarySearch.namesIn t).length = names at *
      -- One library fewer is to come, which leaves `names` steps for what the new one demands.
      obtain ⟨room, hroom'⟩ : ∃ room, first.length + names - c.libraries.length = room + 1 :=
        ⟨first.length + names - (c.libraries.length + 1), by omega⟩
      have hroom'' : first.length + names - (c.libraries.length + 1) = room := by omega
      rw [hroom', Nat.add_mul, Nat.one_mul] at hsteps
      rw [hroom'']
      omega

end

end LibraryCollection

namespace LibrarySearch

variable {s : LibrarySearch} {t : Tree}

theorem dependent_firstDemands {names : List String} :
    ∀ d ∈ s.firstDemands t names, d.dependent = none := by
  intro d hd
  rcases List.mem_append.1 hd with hd | hd
  · obtain ⟨name, -, rfl⟩ := List.mem_map.1 hd
    rfl
  · obtain ⟨path, -, rfl⟩ := List.mem_map.1 hd
    rfl

/-- Collecting only fails at a demand that is not answered. -/
theorem meetAll_error {steps : Nat} {c : LibraryCollection} {e : BuildError}
    (h : s.meetAll t steps c = .error e) : ∃ d, s.answer t d = .error e := by
  induction steps generalizing c with
  | zero => cases h
  | succ steps ih =>
    rw [meetAll] at h
    split at h
    · cases h
    rename_i d rest _
    rcases except_bind_eq_error.1 h with hmeet | ⟨c₁, -, hrest⟩
    · rcases except_bind_eq_error.1 hmeet with hanswer | ⟨r, -, henter⟩
      · exact ⟨d, hanswer⟩
      · cases r <;> cases henter
    · exact ih hrest

/-- The collection ends with every demand met. -/
theorem collect_ok {names : List String} {c : LibraryCollection} (h : s.collect t names = .ok c) :
    c.Collected s t (s.firstDemands t names) ∧ c.demands = [] :=
  (LibraryCollection.Collected.start s t _).meetAll dependent_firstDemands (Nat.le_refl _) h

end LibrarySearch

end SymbolAtlas
