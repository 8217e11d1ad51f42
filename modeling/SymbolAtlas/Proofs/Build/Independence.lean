import SymbolAtlas.Proofs.Build.Resolution
import SymbolAtlas.Proofs.Build.Runs

/-!
# The order of requests

What is resolved does not depend on the order in which libraries are asked for, nor on how often,
as long as no two of the names that come up open different libraries of one name.

* `Asks`: the names that come up, said without the order in which they do;
* `Unambiguous`: two of them that open libraries of one name open one library;
* `resolve_requests`: two lists of the same names are both resolved or both not, and to the same
  libraries.

The names are looked up before the default libraries, which are met in the same order after either
list. So it makes no difference what names the default libraries have.
-/

namespace SymbolAtlas

open Files Relation

namespace LibrarySearch

variable {s : LibrarySearch} {t : Tree} {names names' : List String}

/-- The name is asked for, or listed by a library that such a name opens. -/
inductive Asks (s : LibrarySearch) (t : Tree) (names : List String) : String → Prop
  | requested {name : String} (h : name ∈ names) : Asks s t names name
  | listed {name other : String} {l : ResolvedLibrary} (h : Asks s t names name)
      (ha : s.answer t (dependency name) = .ok (some l)) (hl : other ∈ l.manifest.depends) :
      Asks s t names other

/-- Names that open libraries of one name open them at one path. -/
def Unambiguous (s : LibrarySearch) (t : Tree) (names : List String) : Prop :=
  ∀ name other, Asks s t names name → Asks s t names other → ∀ k j,
    s.answer t (dependency name) = .ok (some k) → s.answer t (dependency other) = .ok (some j) →
    k.name = j.name → k.path = j.path

theorem Asks.mono {name : String} (h : Asks s t names name) (hsub : names ⊆ names') :
    Asks s t names' name := by
  induction h with
  | requested h => exact .requested (hsub h)
  | listed _ ha hl ih => exact .listed ih ha hl

/-- What a name opens, when it does. -/
def opened? (s : LibrarySearch) (t : Tree) (name : String) : Option ResolvedLibrary :=
  (s.answer t (dependency name)).toOption.join

theorem mem_opened? {name : String} {l : ResolvedLibrary}
    (h : s.answer t (dependency name) = .ok (some l)) : l ∈ s.opened? t name := by
  rw [opened?, h]
  rfl

/-- Whether names are unambiguous can be seen on a list of names that holds all that come up. -/
theorem unambiguous_of_closed (asked : List String) (hsub : names ⊆ asked)
    (hclosed : ∀ name ∈ asked, ∀ l ∈ s.opened? t name, ∀ other ∈ l.manifest.depends, other ∈ asked)
    (hpath : ∀ name ∈ asked, ∀ other ∈ asked, ∀ k ∈ s.opened? t name, ∀ j ∈ s.opened? t other,
      k.name = j.name → k.path = j.path) : s.Unambiguous t names := by
  have hmem {name : String} (h : Asks s t names name) : name ∈ asked := by
    induction h with
    | requested h => exact hsub h
    | listed _ ha hl ih => exact hclosed _ ih _ (mem_opened? ha) _ hl
  intro name other hname hother k j hk hj
  exact hpath name (hmem hname) other (hmem hother) k (mem_opened? hk) j (mem_opened? hj)

/-- A library that is opened by a name is told by its own name and its path. -/
theorem answer_ext {name other : String} {k j : ResolvedLibrary}
    (hk : s.answer t (dependency name) = .ok (some k))
    (hj : s.answer t (dependency other) = .ok (some j)) (hname : k.name = j.name)
    (hpath : k.path = j.path) : k = j := by
  obtain ⟨-, ⟨p, -, hk⟩, -⟩ := answer_eq_some.1 hk
  obtain ⟨-, ⟨q, -, hj⟩, -⟩ := answer_eq_some.1 hj
  obtain ⟨text, hread, hmanifest, rfl, hdefault⟩ := openAt_ok hk
  obtain ⟨text', hread', hmanifest', rfl, hdefault'⟩ := openAt_ok hj
  rw [hpath] at hread
  obtain rfl := Except.ok.inj (hread.symm.trans hread')
  obtain ⟨⟩ := k
  obtain ⟨⟩ := j
  rw [ResolvedLibrary.mk.injEq]
  exact ⟨hname, hpath, hmanifest.trans hmanifest'.symm, hdefault.trans hdefault'.symm⟩

end LibrarySearch

namespace LibraryCollection

open LibrarySearch

variable {s : LibrarySearch} {t : Tree} {names names' : List String}
  {c c' c₁ : LibraryCollection} {more : List LibraryDemand}

/-! ## The names that are asked for -/

/-- The run in which the names alone are looked up, to its end. -/
structure Finds (s : LibrarySearch) (t : Tree) (names : List String) (c : LibraryCollection) : Prop where
  runs : Runs s t { demands := names.map dependency } c
  ended : c.demands = []

theorem dependent_dependencies (names : List String) : ∀ d ∈ names.map dependency, d.dependent = none :=
  List.forall_mem_map.2 fun _ _ => rfl

/-- Along the run, each library is what one of the names opens. -/
theorem Collected.asks_library (h : Collected s t (names.map dependency) c) {b : Nat}
    {l : ResolvedLibrary} (hl : c.libraries[b]? = some l) :
    ∃ name, Asks s t names name ∧ s.answer t (dependency name) = .ok (some l) := by
  induction b using Nat.strongRecOn generalizing l with
  | ind b ih =>
    obtain ⟨d, ha, hd⟩ := h.origin b l hl
    rcases hd with hd | ⟨a, k, hab, hk, hd⟩
    · obtain ⟨name, hname, rfl⟩ := List.mem_map.1 hd
      exact ⟨name, .requested hname, ha⟩
    · obtain ⟨other, hother, rfl⟩ := List.mem_map.1 hd
      obtain ⟨name, hname, hanswer⟩ := ih a hab hk
      exact ⟨other, .listed hname hanswer hother, ha⟩

/-- Along the run, each demand that waits is for one of the names. -/
theorem Collected.asks_demand (h : Collected s t (names.map dependency) c) {d : LibraryDemand}
    (hd : d ∈ c.demands) :
    ∃ name, Asks s t names name ∧ s.answer t d = s.answer t (dependency name) := by
  rcases h.waiting d hd with hd | ⟨a, k, hk, hd⟩
  · obtain ⟨name, hname, rfl⟩ := List.mem_map.1 hd
    exact ⟨name, .requested hname, rfl⟩
  · obtain ⟨other, hother, rfl⟩ := List.mem_map.1 hd
    obtain ⟨name, hname, hanswer⟩ := h.asks_library hk
    exact ⟨other, .listed hname hanswer hother, rfl⟩

theorem Finds.collected (h : Finds s t names c) : Collected s t (names.map dependency) c :=
  h.runs.collected (dependent_dependencies _) (.start s t _)

/-- A name whose demand is met is left out, or it opens a library that is there. -/
theorem Finds.library_of_met (h : Finds s t names c) (hun : s.Unambiguous t names) {name : String}
    (hname : Asks s t names name) {d : LibraryDemand} (hmet : Met s t c d)
    (hd : s.answer t d = s.answer t (dependency name)) : s.answer t (dependency name) = .ok none ∨
      ∃ l ∈ c.libraries, s.answer t (dependency name) = .ok (some l) := by
  rcases hmet with hnone | ⟨l, n, k, hl, hk, hkname, -⟩
  · exact .inl (hd ▸ hnone)
  · obtain ⟨other, hother, hanswer⟩ := h.collected.asks_library hk
    rw [hd] at hl
    -- The library of that name is there by some name, and is the same one.
    obtain rfl := answer_ext hanswer hl hkname (hun other name hother hname k l hanswer hl hkname)
    exact .inr ⟨k, List.mem_of_getElem? hk, hl⟩

/-- Every name that comes up is left out, or opens a library that is there in the end. -/
theorem Finds.answered (h : Finds s t names c) (hun : s.Unambiguous t names) {name : String}
    (hname : Asks s t names name) : s.answer t (dependency name) = .ok none ∨
      ∃ l ∈ c.libraries, s.answer t (dependency name) = .ok (some l) := by
  have hmet {d : LibraryDemand} (hd : d ∈ c.demands ∨ Met s t c d) : Met s t c d :=
    hd.resolve_left (by simp [h.ended])
  induction hname with
  | requested hmem =>
    have hd := h.collected.requested _ (List.mem_map_of_mem hmem)
    exact h.library_of_met hun (.requested hmem) (hmet hd) rfl
  | listed hasks ha hother ih =>
    rcases ih with hnone | ⟨k, hk, hanswer⟩
    · cases ha.symm.trans hnone
    obtain rfl := Option.some.inj (Except.ok.inj (ha.symm.trans hanswer))
    obtain ⟨a, hk⟩ := List.getElem?_of_mem hk
    have hd := h.collected.listed a _ hk _ (mem_demandsOf hother)
    exact h.library_of_met hun (.listed hasks ha hother) (hmet hd) rfl

/-- What one list of names finds is there when another one that brings up no other name is looked
up. -/
theorem Finds.subset (h : Finds s t names c) (hun : s.Unambiguous t names)
    (h' : Finds s t names' c') (hsub : names' ⊆ names) : c'.libraries ⊆ c.libraries := by
  intro l hl
  obtain ⟨b, hl⟩ := List.getElem?_of_mem hl
  obtain ⟨name, hname, hanswer⟩ := h'.collected.asks_library hl
  rcases h.answered hun (hname.mono hsub) with hnone | ⟨k, hk, hanswer'⟩
  · cases hanswer.symm.trans hnone
  · obtain rfl := Option.some.inj (Except.ok.inj (hanswer.symm.trans hanswer'))
    exact hk

/-- When all names are found, so are fewer. -/
theorem Finds.exists_of_subset (h : Finds s t names c) (hun : s.Unambiguous t names)
    (hsub : names' ⊆ names) : ∃ c', Finds s t names' c' := by
  rcases exists_ended_or_stuck s t (dependent_dependencies names') with
    ⟨c', hruns, hend⟩ | ⟨c', hruns, d, rest, e, hd, herror⟩
  · exact ⟨c', hruns, hend⟩
  · have hcollected := hruns.collected (dependent_dependencies _) (.start s t _)
    obtain ⟨name, hname, hanswer⟩ := hcollected.asks_demand (hd ▸ List.mem_cons_self)
    rw [hanswer] at herror
    rcases h.answered hun (hname.mono hsub) with hnone | ⟨l, -, hl⟩
    · cases hnone.symm.trans herror
    · cases hl.symm.trans herror

/-! ## The default libraries -/

/-- The same libraries are there, and the same demands wait, though maybe those of libraries with
other numbers. -/
structure Alike (c c' : LibraryCollection) : Prop where
  libraries : ∀ l, l ∈ c.libraries ↔ l ∈ c'.libraries
  demands : List.Forall₂ (fun d d' => d' = { d with dependent := d'.dependent }) c.demands c'.demands

theorem isSome_number? {name : String} :
    (c.number? name).isSome ↔ ∃ l ∈ c.libraries, l.name = name := by
  simp [number?]

theorem forall₂_demandsOf (n m : Nat) (l : ResolvedLibrary) :
    List.Forall₂ (fun d d' => d' = { d with dependent := d'.dependent }) (demandsOf n l)
      (demandsOf m l) := by
  simp [demandsOf, List.forall₂_map_left_iff, List.forall₂_map_right_iff, List.forall₂_same]

theorem Alike.enter (h : Alike c c') (l : ResolvedLibrary) (dependent dependent' : Option Nat) :
    Alike (c.enter l dependent) (c'.enter l dependent') := by
  have hnumber : (c.number? l.name).isSome = (c'.number? l.name).isSome := by
    rw [Bool.eq_iff_iff, isSome_number?, isSome_number?]
    exact exists_congr fun k => and_congr_left fun _ => h.libraries k
  rcases c.enter_eq l dependent with ⟨n, hn, heq⟩ | ⟨hn, heq⟩ <;>
    rcases c'.enter_eq l dependent' with ⟨m, hm, heq'⟩ | ⟨hm, heq'⟩ <;>
    rw [hn, hm] at hnumber
  · rw [heq, heq']
    exact ⟨by simpa using h.libraries, by simpa using h.demands⟩
  · cases hnumber
  · cases hnumber
  · rw [heq, heq']
    refine ⟨fun k => ?_, ?_⟩
    · simp [h.libraries k]
    · simpa using List.rel_append (forall₂_demandsOf _ _ l) h.demands

theorem Alike.step (h : Alike c c') (hstep : Step s t c c₁) : ∃ c₁', Step s t c' c₁' ∧ Alike c₁ c₁' := by
  obtain ⟨d, rest, hd, hmeet⟩ := hstep
  have hdemands := h.demands
  rw [hd] at hdemands
  obtain ⟨d', rest', hsame, hrest, hd'⟩ := List.forall₂_cons_left_iff.1 hdemands
  have hanswer : s.answer t d' = s.answer t d := by
    rw [hsame]
    rfl
  obtain ⟨r, ha, hc₁⟩ := except_bind_eq_ok.1 hmeet
  have hbefore : Alike { c with demands := rest } { c' with demands := rest' } :=
    ⟨h.libraries, hrest⟩
  cases r with
  | none =>
    obtain rfl := Except.ok.inj hc₁
    exact ⟨_, ⟨d', rest', hd', except_bind_eq_ok.2 ⟨none, hanswer.trans ha, rfl⟩⟩, hbefore⟩
  | some l =>
    obtain rfl := Except.ok.inj hc₁
    exact ⟨_, ⟨d', rest', hd', except_bind_eq_ok.2 ⟨some l, hanswer.trans ha, rfl⟩⟩,
      hbefore.enter l _ _⟩

theorem Alike.runs (h : Alike c c') (hruns : Runs s t c c₁) :
    ∃ c₁', Runs s t c' c₁' ∧ Alike c₁ c₁' := by
  induction hruns with
  | refl => exact ⟨c', .refl, h⟩
  | tail _ hstep ih =>
    obtain ⟨c₂, hruns₂, h₂⟩ := ih
    obtain ⟨c₃, hstep₃, h₃⟩ := h₂.step hstep
    exact ⟨c₃, hruns₂.tail hstep₃, h₃⟩

/-- What waits behind the names is met as it is when others have found the same libraries. -/
theorem Finds.exists_end (h : Finds s t names c) (hlib : ∀ l, l ∈ c'.libraries ↔ l ∈ c.libraries)
    {e' : LibraryCollection} (hruns : Runs s t { c' with demands := more } e')
    (hend : e'.demands = []) :
    ∃ e, Runs s t { demands := names.map dependency ++ more } e ∧ e.demands = [] ∧
      ∀ l, l ∈ e'.libraries ↔ l ∈ e.libraries := by
  have hwait : Alike { c' with demands := more } { c with demands := more } :=
    ⟨hlib, List.forall₂_same.2 fun _ _ => rfl⟩
  obtain ⟨e, hruns', halike⟩ := hwait.runs hruns
  have hdemands := halike.demands
  rw [hend, List.forall₂_nil_left_iff] at hdemands
  exact ⟨e, h.runs.append h.ended hruns', hdemands, halike.libraries⟩

end LibraryCollection

namespace LibrarySearch

open LibraryCollection

variable {s : LibrarySearch} {t : Tree} {names names' : List String}

/-- The same names are collected to the same libraries. -/
theorem collect_requests (hsame : ∀ name, name ∈ names ↔ name ∈ names')
    (hun : s.Unambiguous t names) {c : LibraryCollection} (h : s.collect t names = .ok c) :
    ∃ c', s.collect t names' = .ok c' ∧ c.libraries.Perm c'.libraries := by
  have hsub : names' ⊆ names := fun name => (hsame name).2
  have hsup : names ⊆ names' := fun name => (hsame name).1
  have hun' : s.Unambiguous t names' := fun name other hname hother =>
    hun name other (hname.mono hsub) (hother.mono hsub)
  obtain ⟨hruns, hend⟩ := collect_eq_ok.1 h
  obtain ⟨c₁, hruns₁, hend₁, hrest⟩ := exists_runs_append (dependent_dependencies _) hruns hend
  have hfinds : Finds s t names c₁ := ⟨hruns₁, hend₁⟩
  obtain ⟨c₁', hfinds'⟩ := hfinds.exists_of_subset hun hsub
  obtain ⟨c', hruns', hend', hlib⟩ := hfinds'.exists_end
    (fun l => ⟨fun hl => hfinds'.subset hun' hfinds hsup hl, fun hl => hfinds.subset hun hfinds' hsub hl⟩)
    hrest hend
  have hc' : s.collect t names' = .ok c' := collect_eq_ok.2 ⟨hruns', hend'⟩
  refine ⟨c', hc', (List.perm_ext_iff_of_nodup ?_ ?_).2 hlib⟩
  · exact (collect_ok h).1.distinct.of_map _
  · exact (collect_ok hc').1.distinct.of_map _

theorem OnCycle.mono {libs libs' : List ResolvedLibrary} {l : ResolvedLibrary}
    (h : s.OnCycle t libs l) (hsub : libs ⊆ libs') : s.OnCycle t libs' l :=
  h.lift id fun _ _ ⟨hk, hj, hneeds⟩ => ⟨hsub hk, hsub hj, hneeds⟩

/-- Libraries are resolved when they are collected and none depends on itself. -/
theorem resolve_ok_iff : (∃ libs, s.resolve t names = .ok libs) ↔
    ∃ c, s.collect t names = .ok c ∧ ¬ ∃ l, s.OnCycle t c.libraries l := by
  constructor
  · rintro ⟨libs, h⟩
    obtain ⟨c, hc, -⟩ := except_bind_eq_ok.1 h
    refine ⟨c, hc, ?_⟩
    cases ho : c.graph.order with
    | ok order => exact (resolve_of_order_ok hc ho).2
    | error n =>
      obtain ⟨l, herror, -⟩ := resolve_of_order_error hc ho
      cases h.symm.trans herror
  · rintro ⟨c, hc, hcycle⟩
    cases ho : c.graph.order with
    | ok order => exact (resolve_of_order_ok hc ho).1
    | error n =>
      obtain ⟨l, -, hl⟩ := resolve_of_order_error hc ho
      exact absurd ⟨l, hl⟩ hcycle

/-- What is resolved is what is collected. -/
theorem resolve_perm {libs : List ResolvedLibrary} (h : s.resolve t names = .ok libs) :
    ∃ c, s.collect t names = .ok c ∧ libs.Perm c.libraries := by
  obtain ⟨c, hc, harrange⟩ := except_bind_eq_ok.1 h
  refine ⟨c, hc, ?_⟩
  unfold arrange at harrange
  split at harrange
  · rename_i order horder
    obtain rfl := Except.ok.inj harrange
    have hcomplete := collect_complete hc
    exact hcomplete.perm (DependencyGraph.order_ok hcomplete.bounded horder)
  · cases harrange

theorem exists_resolve_requests (hsame : ∀ name, name ∈ names ↔ name ∈ names')
    (hun : s.Unambiguous t names) (h : ∃ libs, s.resolve t names = .ok libs) :
    ∃ libs, s.resolve t names' = .ok libs := by
  obtain ⟨c, hc, hcycle⟩ := resolve_ok_iff.1 h
  obtain ⟨c', hc', hperm⟩ := collect_requests hsame hun hc
  exact resolve_ok_iff.2 ⟨c', hc', fun ⟨l, hl⟩ => hcycle ⟨l, hl.mono hperm.symm.subset⟩⟩

/-- **The order of requests makes no difference, nor does asking twice.** Two lists of the same names
are both resolved or both not, and to the same libraries, with the same paths and manifests and the
same ones as defaults. -/
theorem resolve_requests (hsame : ∀ name, name ∈ names ↔ name ∈ names')
    (hun : s.Unambiguous t names) :
    ((∃ libs, s.resolve t names = .ok libs) ↔ ∃ libs, s.resolve t names' = .ok libs) ∧
      ∀ libs libs', s.resolve t names = .ok libs → s.resolve t names' = .ok libs' →
        libs.Perm libs' := by
  have hun' : s.Unambiguous t names' := fun name other hname hother =>
    hun name other (hname.mono fun _ => (hsame _).2) (hother.mono fun _ => (hsame _).2)
  refine ⟨⟨exists_resolve_requests hsame hun,
    exists_resolve_requests (fun name => (hsame name).symm) hun'⟩, fun libs libs' h h' => ?_⟩
  obtain ⟨c, hc, hlibs⟩ := resolve_perm h
  obtain ⟨c₁, hc₁, hlibs'⟩ := resolve_perm h'
  obtain ⟨c', hc', hperm⟩ := collect_requests hsame hun hc
  obtain rfl := Except.ok.inj (hc₁.symm.trans hc')
  exact hlibs.trans (hperm.trans hlibs'.symm)

/-- A library that goes by another name than its directory, asked for in another order and once more.
The libraries are the same in another order, the one found as a default too. -/
theorem resolve_requests_wire :
    let t := treeOf [("app", "depends=net"), ("core", ""), ("log", "depends=core stdlib"),
      ("net", "depends=core\nunique_name=wire")]
    let s : LibrarySearch := { repositories := [], target := .linuxX64, defaultsDir := some ⟨"/libs"⟩ }
    (∀ name, name ∈ ["net", "log"] ↔ name ∈ ["log", "net", "log"]) ∧ s.Unambiguous t ["net", "log"] ∧
      ∃ libs libs', s.resolve t ["net", "log"] = .ok libs ∧ s.resolve t ["log", "net", "log"] = .ok libs' ∧
        libs.map (·.name) = ["core", "wire", "log", "app"] ∧
        libs'.map (·.name) = ["core", "log", "wire", "app"] ∧ libs.Perm libs' := by
  intro t s
  have hsame : ∀ name, name ∈ ["net", "log"] ↔ name ∈ ["log", "net", "log"] := by
    intro name
    simp [or_comm]
  have hun : s.Unambiguous t ["net", "log"] :=
    unambiguous_of_closed ["net", "log", "core", "stdlib"] (by decide) (by decide +kernel)
      (by decide +kernel)
  have hchildren : t.children ["libs"] = ["app", "core", "log", "net"] :=
    List.mergeSort_of_pairwise (by decide)
  have hplace : t.place ⟨"/libs"⟩ = .ok ["libs"] := by decide +kernel
  have hdir : t.get? ["libs"] = some .directory := by decide +kernel
  have hfind : DirectoryLibrary.find t ⟨"/libs"⟩ 1 =
      [⟨"/libs/app"⟩, ⟨"/libs/core"⟩, ⟨"/libs/log"⟩, ⟨"/libs/net"⟩] := by
    simp only [DirectoryLibrary.find, hplace, hdir, DirectoryLibrary.findBelow, hchildren, Nat.max_self]
    decide +kernel
  have hnames : (s.resolve t ["net", "log"]).map (·.map (·.name)) =
      .ok ["core", "wire", "log", "app"] := by
    simp only [s, resolve, collect, firstDemands, Option.toList_some, List.flatMap_cons, hfind]
    decide +kernel
  have hnames' : (s.resolve t ["log", "net", "log"]).map (·.map (·.name)) =
      .ok ["core", "log", "wire", "app"] := by
    simp only [s, resolve, collect, firstDemands, Option.toList_some, List.flatMap_cons, hfind]
    decide +kernel
  obtain ⟨libs, h, hlibs⟩ := except_map_eq_ok.1 hnames
  obtain ⟨libs', h', hlibs'⟩ := except_map_eq_ok.1 hnames'
  exact ⟨hsame, hun, libs, libs', h, h', hlibs, hlibs', (resolve_requests hsame hun).2 _ _ h h'⟩

end LibrarySearch

end SymbolAtlas
