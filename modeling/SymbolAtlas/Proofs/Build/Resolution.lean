import SymbolAtlas.Proofs.Build.Collection

/-!
# What resolving libraries gives

The libraries that are collected are the closure of what is asked for, whatever names, paths and
shared dependencies there are, and resolving puts them in order exactly when they do not depend on
each other in a cycle:

* `Closure`: the libraries that names ask for, said without the order in which they are found;
* `dependsOn_iff`: the numbered edges are the dependencies among the collected libraries;
* `resolve_ok`: a result is the closure, with dependencies first;
* `resolve_cycle`: there is no result exactly when there is a cycle, and the library that is named
  lies on one.
-/

namespace SymbolAtlas

open Files Relation

namespace LibrarySearch

variable {s : LibrarySearch} {t : Tree} {names : List String} {libs : List ResolvedLibrary}

def dependency (name : String) : LibraryDemand :=
  { requested := name }

def defaultAt (path : Path) : LibraryDemand :=
  { requested := path.fileName?.getD "", path := some path, isDefault := true }

/-- `libs` satisfies a demand: what it opens is there by its name, unless the standard library is
left out and the demand spells it or opens it. -/
def Covers (s : LibrarySearch) (t : Tree) (libs : List ResolvedLibrary) (d : LibraryDemand) : Prop :=
  s.skips d.requested = true ∨
    ∃ l, s.Opens t d l ∧ (s.skips l.name = true ∨ l.name ∈ libs.map (·.name))

/-- The library is asked for by name or as a default, or listed by a library of `libs` that is. -/
inductive Reached (s : LibrarySearch) (t : Tree) (names : List String)
    (libs : List ResolvedLibrary) : ResolvedLibrary → Prop
  | requested {d : LibraryDemand} {l : ResolvedLibrary} (hd : d ∈ s.firstDemands t names)
      (ho : s.Opens t d l) (hl : l ∈ libs) : Reached s t names libs l
  | listed {k l : ResolvedLibrary} {name : String} (hk : Reached s t names libs k)
      (hn : name ∈ k.manifest.depends) (ho : s.Opens t (dependency name) l) (hl : l ∈ libs) :
      Reached s t names libs l

/-- `libs` are the libraries that `names` and the defaults ask for, with all that they depend on. -/
structure Closure (s : LibrarySearch) (t : Tree) (names : List String)
    (libs : List ResolvedLibrary) : Prop where
  distinct : (libs.map (·.name)).Nodup
  requested : ∀ name ∈ names, s.Covers t libs (dependency name)
  defaults : s.dropDefaults = false → ∀ dir, s.defaultsDir = some dir →
    ∀ path ∈ DirectoryLibrary.find t dir 1, s.Covers t libs (defaultAt path)
  listed : ∀ l ∈ libs, ∀ name ∈ l.manifest.depends, s.Covers t libs (dependency name)
  reached : ∀ l ∈ libs, Reached s t names libs l
  standard : s.skipStandard = true → ∀ l ∈ libs, l.name ≠ standardLibrary

/-- `k` lists a name that opens `j`, or a library that `j` stands for under their common name, and
that is not left out. -/
def Needs (s : LibrarySearch) (t : Tree) (k j : ResolvedLibrary) : Prop :=
  ∃ name ∈ k.manifest.depends, s.skips name = false ∧
    ∃ l, s.Opens t (dependency name) l ∧ s.skips l.name = false ∧ l.name = j.name

/-- Following dependencies within `libs` leads from `l` back to `l`. -/
def OnCycle (s : LibrarySearch) (t : Tree) (libs : List ResolvedLibrary) (l : ResolvedLibrary) : Prop :=
  TransGen (fun k j => k ∈ libs ∧ j ∈ libs ∧ s.Needs t k j) l l

end LibrarySearch

namespace LibraryCollection

open LibrarySearch

variable {s : LibrarySearch} {t : Tree} {names : List String} {c : LibraryCollection}

/-- A collection that is complete: it began with what `names` ask for, and every demand is met. -/
structure Complete (s : LibrarySearch) (t : Tree) (names : List String) (c : LibraryCollection) :
    Prop where
  collected : c.Collected s t (s.firstDemands t names)
  met : c.demands = []

theorem mem_demandsOf {n : Nat} {l : ResolvedLibrary} {name : String}
    (h : name ∈ l.manifest.depends) :
    ({ requested := name, dependent := some n } : LibraryDemand) ∈ demandsOf n l :=
  List.mem_map_of_mem h

theorem Complete.met_first (h : c.Complete s t names) {d : LibraryDemand}
    (hd : d ∈ s.firstDemands t names) : Met s t c d :=
  (h.collected.requested d hd).resolve_left (by simp [h.met])

theorem Complete.met_listed (h : c.Complete s t names) {a : Nat} {k : ResolvedLibrary}
    (hk : c.libraries[a]? = some k) {name : String} (hn : name ∈ k.manifest.depends) :
    Met s t c { requested := name, dependent := some a } :=
  (h.collected.listed a k hk _ (mem_demandsOf hn)).resolve_left (by simp [h.met])

/-- Whom a met demand was made for makes no difference to its answer. -/
theorem Met.covers {d d' : LibraryDemand} (h : Met s t c d) (ha : s.answer t d' = s.answer t d) :
    s.Covers t c.libraries d' := by
  rcases h with h | ⟨l, n, k, h, hk, hname, -⟩
  · rcases answer_eq_none.1 (ha.trans h) with hskip | ⟨l, hl, hskip⟩
    · exact .inl hskip
    · exact .inr ⟨l, hl, .inl hskip⟩
  · have hopen := (answer_eq_some.1 (ha.trans h)).2.1
    exact .inr ⟨l, hopen, .inr (hname ▸ List.mem_map_of_mem (List.mem_of_getElem? hk))⟩

theorem Complete.reached (h : c.Complete s t names) {b : Nat} {l : ResolvedLibrary}
    (hb : c.libraries[b]? = some l) : Reached s t names c.libraries l := by
  induction b using Nat.strongRecOn generalizing l with
  | ind b ih =>
    have hl := List.mem_of_getElem? hb
    obtain ⟨d, ha, hd⟩ := h.collected.origin b l hb
    have hopen := (answer_eq_some.1 ha).2.1
    rcases hd with hd | ⟨a, k, hab, hk, hd⟩
    · exact .requested hd hopen hl
    · obtain ⟨name, hn, rfl⟩ := List.mem_map.1 hd
      exact .listed (ih a hab hk) hn hopen hl

theorem Complete.closure (h : c.Complete s t names) : s.Closure t names c.libraries where
  distinct := h.collected.distinct
  requested := by
    intro name hn
    have hd : dependency name ∈ s.firstDemands t names :=
      List.mem_append_left _ (List.mem_map_of_mem hn)
    exact (h.met_first hd).covers rfl
  defaults := by
    intro hdrop dir hdir path hp
    have hd : defaultAt path ∈ s.firstDemands t names := by
      refine List.mem_append_right _ (List.mem_map_of_mem (f := defaultAt) ?_)
      simp [hdrop, hdir, hp]
    exact (h.met_first hd).covers rfl
  listed := by
    intro l hl name hn
    obtain ⟨a, ha⟩ := List.getElem?_of_mem hl
    exact (h.met_listed ha hn).covers rfl
  reached := by
    intro l hl
    obtain ⟨b, hb⟩ := List.getElem?_of_mem hl
    exact h.reached hb
  standard := by
    intro hskip l hl heq
    obtain ⟨b, hb⟩ := List.getElem?_of_mem hl
    obtain ⟨d, ha, -⟩ := h.collected.origin b l hb
    have hname := (answer_eq_some.1 ha).2.2
    simp [skips, hskip, heq] at hname

/-! ## The numbered graph and the libraries -/

theorem Complete.bounded (h : c.Complete s t names) : c.graph.Bounded := by
  intro a b hab
  obtain ⟨k, j, hk, hj, -⟩ := h.collected.edges a b hab
  rw [h.collected.size]
  exact ⟨(List.getElem?_eq_some_iff.1 hk).1, (List.getElem?_eq_some_iff.1 hj).1⟩

/-- Two libraries of one name are one. -/
theorem Complete.number_unique (h : c.Complete s t names) {a b : Nat} {k j : ResolvedLibrary}
    (hk : c.libraries[a]? = some k) (hj : c.libraries[b]? = some j) (hname : k.name = j.name) :
    a = b := by
  have hmap {n : Nat} {l : ResolvedLibrary} (hl : c.libraries[n]? = some l) :
      (c.libraries.map (·.name))[n]? = some l.name := by rw [List.getElem?_map, hl]; rfl
  have ha := (List.getElem?_eq_some_iff.1 (hmap hk)).1
  exact (List.getElem?_inj ha h.collected.distinct).1 ((hmap hk).trans (hname ▸ (hmap hj).symm))

theorem Complete.dependsOn_iff (h : c.Complete s t names) {a b : Nat} {k j : ResolvedLibrary}
    (hk : c.libraries[a]? = some k) (hj : c.libraries[b]? = some j) :
    c.graph.DependsOn a b ↔ s.Needs t k j := by
  constructor
  · intro hab
    obtain ⟨k', j', hk', hj', d, hd, l, ha, hname⟩ := h.collected.edges a b hab
    obtain rfl := Option.some.inj (hk'.symm.trans hk)
    obtain rfl := Option.some.inj (hj'.symm.trans hj)
    obtain ⟨name, hn, rfl⟩ := List.mem_map.1 hd
    obtain ⟨hskip, hopen, hskip'⟩ := answer_eq_some.1 ha
    exact ⟨name, hn, hskip, l, hopen, hskip', hname⟩
  · rintro ⟨name, hn, hskip, l, hopen, hskip', hname⟩
    have ha : s.answer t { requested := name, dependent := some a } = .ok (some l) :=
      answer_eq_some.2 ⟨hskip, hopen, hskip'⟩
    rcases h.met_listed hk hn with hnone | ⟨l', n, j', ha', hn', hname', hdep⟩
    · cases ha.symm.trans hnone
    · obtain rfl := Option.some.inj (Except.ok.inj (ha.symm.trans ha'))
      obtain rfl := h.number_unique hn' hj (hname'.trans hname)
      exact hdep a rfl

theorem Complete.onCycle_iff (h : c.Complete s t names) {n : Nat} {l : ResolvedLibrary}
    (hl : c.libraries[n]? = some l) : c.graph.OnCycle n ↔ s.OnCycle t c.libraries l := by
  constructor
  · intro hcycle
    have hlift {b : Nat} (hb : TransGen c.graph.DependsOn n b) : ∀ j, c.libraries[b]? = some j →
        TransGen (fun k j => k ∈ c.libraries ∧ j ∈ c.libraries ∧ s.Needs t k j) l j := by
      have hmem := List.mem_of_getElem? hl
      induction hb with
      | single hdep =>
        intro j hj
        exact .single ⟨hmem, List.mem_of_getElem? hj, (h.dependsOn_iff hl hj).1 hdep⟩
      | tail _ hdep ih =>
        intro j hj
        obtain ⟨k, _, hk, -⟩ := h.collected.edges _ _ hdep
        exact (ih k hk).tail ⟨List.mem_of_getElem? hk, List.mem_of_getElem? hj,
          (h.dependsOn_iff hk hj).1 hdep⟩
    exact hlift hcycle l hl
  · intro hcycle
    have hlift {j : ResolvedLibrary}
        (hj : TransGen (fun k j => k ∈ c.libraries ∧ j ∈ c.libraries ∧ s.Needs t k j) l j) :
        ∀ b, c.libraries[b]? = some j → TransGen c.graph.DependsOn n b := by
      induction hj with
      | single hdep =>
        intro b hb
        exact .single ((h.dependsOn_iff hl hb).2 hdep.2.2)
      | tail _ hdep ih =>
        intro b hb
        obtain ⟨a, ha⟩ := List.getElem?_of_mem hdep.1
        exact (ih a ha).tail ((h.dependsOn_iff ha hb).2 hdep.2.2)
    exact hlift hcycle n hl

/-! ## The result -/

theorem filterMap_range_getElem? {α : Type} (l : List α) :
    (List.range l.length).filterMap (l[·]?) = l := by
  have hmap : (List.range l.length).map (l[·]?) = l.map some := by
    apply List.ext_getElem (by simp)
    intro n hn _
    have hn : n < l.length := by simpa using hn
    simp [hn]
  calc (List.range l.length).filterMap (l[·]?)
      = ((List.range l.length).map (l[·]?)).filterMap id := by rw [List.filterMap_map]; rfl
    _ = (l.map some).filterMap id := by rw [hmap]
    _ = l := by rw [List.filterMap_map]; exact List.filterMap_some

/-- In some order, all that is collected. -/
theorem Complete.perm (h : c.Complete s t names) {order : List Nat} (ho : c.graph.Ordered order) :
    (order.filterMap (c.libraries[·]?)).Perm c.libraries := by
  have hrange : order.Perm (List.range c.libraries.length) := by
    apply (List.perm_ext_iff_of_nodup ho.nodup List.nodup_range).2
    intro n
    rw [ho.mem_iff, List.mem_range, h.collected.size]
  exact (hrange.filterMap _).trans (.of_eq (filterMap_range_getElem? c.libraries))

/-- What a library lists stands before it. -/
theorem Complete.covers_before (h : c.Complete s t names) {order : List Nat}
    (ho : c.graph.Ordered order) {before after : List ResolvedLibrary} {l : ResolvedLibrary}
    (hsplit : order.filterMap (c.libraries[·]?) = before ++ l :: after) {name : String}
    (hn : name ∈ l.manifest.depends) : s.Covers t before (dependency name) := by
  obtain ⟨first, rest, rfl, rfl, hrest⟩ := List.filterMap_eq_append_iff.1 hsplit
  obtain ⟨none, n, last, rfl, hnone, hl, -⟩ := List.filterMap_eq_cons_iff.1 hrest
  rcases h.met_listed hl hn with hskip | ⟨l', m, k, ha, hk, hname, hdep⟩
  · rcases answer_eq_none.1 hskip with hskip | ⟨l', hopen, hskip⟩
    · exact .inl hskip
    · exact .inr ⟨l', hopen, .inl hskip⟩
  · have hm : m ∈ first ++ none := ho.before (first ++ none) n last (by simp) m (hdep n rfl)
    have hfirst : m ∈ first := by
      apply (List.mem_append.1 hm).resolve_right
      intro hm
      rw [hnone m hm] at hk
      cases hk
    refine .inr ⟨l', (answer_eq_some.1 ha).2.1, .inr ?_⟩
    rw [← hname]
    exact List.mem_map_of_mem (List.mem_filterMap.2 ⟨m, hfirst, hk⟩)

end LibraryCollection

namespace LibrarySearch

variable {s : LibrarySearch} {t : Tree} {names : List String} {libs : List ResolvedLibrary}

/-- The libraries that are asked for, each after all that it lists. -/
structure DependenciesFirst (s : LibrarySearch) (t : Tree) (names : List String)
    (libs : List ResolvedLibrary) : Prop extends s.Closure t names libs where
  before : ∀ before l after, libs = before ++ l :: after →
    ∀ name ∈ l.manifest.depends, s.Covers t before (dependency name)

theorem Covers.mono {libs' : List ResolvedLibrary} {d : LibraryDemand} (h : s.Covers t libs d)
    (hsub : libs ⊆ libs') : s.Covers t libs' d := by
  rcases h with h | ⟨l, ho, h⟩
  · exact .inl h
  · exact .inr ⟨l, ho, h.imp id fun hl => List.map_subset _ hsub hl⟩

theorem Reached.mono {libs' : List ResolvedLibrary} {l : ResolvedLibrary}
    (h : Reached s t names libs l) (hsub : libs ⊆ libs') : Reached s t names libs' l := by
  induction h with
  | requested hd ho hl => exact .requested hd ho (hsub hl)
  | listed _ hn ho hl ih => exact .listed ih hn ho (hsub hl)

/-- The order of the libraries makes no difference to what they are the closure of. -/
theorem Closure.perm {libs' : List ResolvedLibrary} (h : s.Closure t names libs)
    (hp : libs.Perm libs') : s.Closure t names libs' where
  distinct := (hp.map _).nodup_iff.1 h.distinct
  requested := fun name hn => (h.requested name hn).mono hp.subset
  defaults := fun hdrop dir hdir path hpath => (h.defaults hdrop dir hdir path hpath).mono hp.subset
  listed := fun l hl name hn => (h.listed l (hp.mem_iff.2 hl) name hn).mono hp.subset
  reached := fun l hl => (h.reached l (hp.mem_iff.2 hl)).mono hp.subset
  standard := fun hskip l hl => h.standard hskip l (hp.mem_iff.2 hl)

theorem collect_complete {c : LibraryCollection} (h : s.collect t names = .ok c) :
    c.Complete s t names :=
  ⟨(collect_ok h).1, (collect_ok h).2⟩

theorem resolve_of_collect {c : LibraryCollection} (h : s.collect t names = .ok c) :
    s.resolve t names = arrange c := by
  rw [resolve, h]
  rfl

/-- **A result is the closure of what is asked for, dependencies first.** Every library in it opens
from a name or a default that is asked for, or from a name that a library in it lists; whatever is
asked for or listed is there, what is listed before the library that lists it. -/
theorem resolve_ok (h : s.resolve t names = .ok libs) : s.DependenciesFirst t names libs := by
  obtain ⟨c, hc, harrange⟩ := except_bind_eq_ok.1 h
  have hcomplete := collect_complete hc
  unfold arrange at harrange
  split at harrange
  · rename_i order horder
    obtain rfl := Except.ok.inj harrange
    have ho := DependencyGraph.order_ok hcomplete.bounded horder
    exact
      { hcomplete.closure.perm (hcomplete.perm ho).symm with
        before := fun _ _ _ hsplit _ hn => hcomplete.covers_before ho hsplit hn }
  · cases harrange

/-- A tree of library directories with these manifests. -/
def treeOf (manifests : List (String × String)) : Tree where
  entries := ⟨(["libs"], .directory) :: manifests.flatMap fun (name, text) =>
    [(["libs", name], .directory),
      (["libs", name, "manifest"], .file (Text.bytesOfText text))]⟩
  workingDir := []

def inLibs : LibrarySearch where
  repositories := [⟨"/libs"⟩]
  target := .linuxX64

/-- A library that two others share comes before both, and the standard library is left out. -/
theorem resolve_ok_shared :
    let t := treeOf [("app", "depends=net core stdlib"), ("net", "depends=core\nunique_name=wire"),
      ("core", "")]
    ∃ libs, inLibs.resolve t ["app"] = .ok libs ∧ libs.map (·.name) = ["core", "wire", "app"] ∧
      inLibs.DependenciesFirst t ["app"] libs := by
  intro t
  have hnames : (inLibs.resolve t ["app"]).map (·.map (·.name)) = .ok ["core", "wire", "app"] := by
    decide +kernel
  obtain ⟨libs, hlibs, hmap⟩ := except_map_eq_ok.1 hnames
  exact ⟨libs, hlibs, hmap, resolve_ok hlibs⟩

/-- A collection that is not put in order has a cycle, and a library on it is named. -/
theorem resolve_of_order_error {c : LibraryCollection} (h : s.collect t names = .ok c) {n : Nat}
    (hn : c.graph.order = .error n) :
    ∃ l, s.resolve t names = .error (.dependencyCycle l.name) ∧ s.OnCycle t c.libraries l := by
  have hcomplete := collect_complete h
  have hcycle := DependencyGraph.order_error hcomplete.bounded hn
  obtain ⟨m, hdep, -⟩ := TransGen.head'_iff.1 hcycle
  obtain ⟨l, -, hl, -⟩ := hcomplete.collected.edges n m hdep
  refine ⟨l, ?_, (hcomplete.onCycle_iff hl).1 hcycle⟩
  rw [resolve_of_collect h, arrange, hn]
  simp only [hl, Option.elim_some]

/-- A collection that is put in order has no cycle. -/
theorem resolve_of_order_ok {c : LibraryCollection} (h : s.collect t names = .ok c)
    {order : List Nat} (ho : c.graph.order = .ok order) :
    (∃ libs, s.resolve t names = .ok libs) ∧ ¬ ∃ l, s.OnCycle t c.libraries l := by
  have hcomplete := collect_complete h
  refine ⟨⟨_, by rw [resolve_of_collect h, arrange, ho]⟩, ?_⟩
  rintro ⟨l, hcycle⟩
  obtain ⟨j, ⟨hl, -⟩, -⟩ := TransGen.head'_iff.1 hcycle
  obtain ⟨n, hn⟩ := List.getElem?_of_mem hl
  have hordered := DependencyGraph.order_ok hcomplete.bounded ho
  exact hordered.acyclic hcomplete.bounded n ((hcomplete.onCycle_iff hn).2 hcycle)

/-- A cycle is only named once every library that is looked for is found and opens. -/
theorem collect_of_resolve {name : String}
    (h : s.resolve t names = .error (.dependencyCycle name)) : ∃ c, s.collect t names = .ok c := by
  cases hc : s.collect t names with
  | ok c => exact ⟨c, rfl⟩
  | error e =>
    obtain ⟨d, hd⟩ := meetAll_error hc
    rw [resolve, hc] at h
    obtain rfl := Except.error.inj h
    rcases answer_error hd with ⟨_, heq⟩ | ⟨_, heq⟩ <;> cases heq

/-- **There is no result exactly when there is a cycle.** The library that is named lies on one. When
every library that is looked for is found and opens, a cycle among the libraries that are asked for
is all that can be in the way. -/
theorem resolve_cycle :
    (∀ name, s.resolve t names = .error (.dependencyCycle name) →
      ∃ c, s.collect t names = .ok c ∧ ∃ l, l.name = name ∧ s.OnCycle t c.libraries l) ∧
    ∀ c, s.collect t names = .ok c →
      s.Closure t names c.libraries ∧
        ((∃ name, s.resolve t names = .error (.dependencyCycle name)) ↔
          ∃ l, s.OnCycle t c.libraries l) ∧
        ((∃ libs, s.resolve t names = .ok libs) ↔ ¬ ∃ l, s.OnCycle t c.libraries l) := by
  constructor
  · intro name hname
    obtain ⟨c, hc⟩ := collect_of_resolve hname
    refine ⟨c, hc, ?_⟩
    cases ho : c.graph.order with
    | error n =>
      obtain ⟨l, hresolve, hcycle⟩ := resolve_of_order_error hc ho
      rw [hresolve] at hname
      exact ⟨l, BuildError.dependencyCycle.inj (Except.error.inj hname), hcycle⟩
    | ok order =>
      obtain ⟨⟨libs, hresolve⟩, -⟩ := resolve_of_order_ok hc ho
      cases hresolve.symm.trans hname
  · intro c hc
    refine ⟨(collect_complete hc).closure, ?_⟩
    cases ho : c.graph.order with
    | error n =>
      obtain ⟨l, hresolve, hcycle⟩ := resolve_of_order_error hc ho
      refine ⟨⟨fun _ => ⟨l, hcycle⟩, fun _ => ⟨l.name, hresolve⟩⟩, ?_, fun hno => ?_⟩
      · rintro ⟨libs, hlibs⟩
        cases hresolve.symm.trans hlibs
      · exact absurd ⟨l, hcycle⟩ hno
    | ok order =>
      obtain ⟨⟨libs, hresolve⟩, hno⟩ := resolve_of_order_ok hc ho
      refine ⟨⟨?_, fun hcycle => absurd hcycle hno⟩, fun _ => hno, fun _ => ⟨libs, hresolve⟩⟩
      rintro ⟨name, hname⟩
      cases hresolve.symm.trans hname

/-- The library that is named is not the one that leads to the cycle. -/
theorem resolve_cycle_upstream :
    let t := treeOf [("app", "depends=net"), ("net", "depends=core"), ("core", "depends=net log"),
      ("log", "")]
    inLibs.resolve t ["app"] = .error (.dependencyCycle "core") ∧
      ∃ c, inLibs.collect t ["app"] = .ok c ∧ inLibs.Closure t ["app"] c.libraries ∧
        (∃ l, l.name = "core" ∧ inLibs.OnCycle t c.libraries l) ∧
        ¬ ∃ libs, inLibs.resolve t ["app"] = .ok libs := by
  intro t
  have hnames : (inLibs.resolve t ["app"]).map (·.map (·.name)) =
      .error (.dependencyCycle "core") := by decide +kernel
  have herror := except_map_eq_error.1 hnames
  obtain ⟨c, hc, l, hl⟩ := resolve_cycle.1 "core" herror
  obtain ⟨hclosure, -, hresult⟩ := resolve_cycle.2 c hc
  exact ⟨herror, c, hc, hclosure, ⟨l, hl⟩, fun h => hresult.1 h ⟨l, hl.2⟩⟩

end LibrarySearch

end SymbolAtlas
