import SymbolAtlas.Proofs.Build.Independence
import SymbolAtlas.Proofs.Build.Iterations

/-!
# Which libraries count as default ones

A library is marked as a default one by the demand that opens it first. The requests are met before
the default libraries, and a default library is met with all that it depends on before the next one
is, so the mark says what came first.

* `ReachedFrom`: what some demands reach, said without the order in which they are met;
* `Front.mem_iff_reachedFrom`: what is collected for the demands in front is what they reach;
* `resolve_isDefault`: which libraries are marked.
-/

namespace SymbolAtlas

open Files Relation

namespace LibrarySearch

/-- Some demands reach the library: it has the name of one that they open, or that a library that they
reach depends on. -/
inductive ReachedFrom (s : LibrarySearch) (t : Tree) (libs : List ResolvedLibrary)
    (demands : List LibraryDemand) : ResolvedLibrary → Prop
  | opened {d : LibraryDemand} {k l : ResolvedLibrary} (hd : d ∈ demands)
      (ha : s.answer t d = .ok (some k)) (hl : l ∈ libs) (hname : k.name = l.name) :
      ReachedFrom s t libs demands l
  | needed {k l : ResolvedLibrary} (hk : ReachedFrom s t libs demands k) (hl : l ∈ libs)
      (hneeds : s.Needs t k l) : ReachedFrom s t libs demands l

variable {s : LibrarySearch} {t : Tree} {libs libs' : List ResolvedLibrary} {l : ResolvedLibrary}
  {demands more : List LibraryDemand}

theorem ReachedFrom.mono (h : s.ReachedFrom t libs demands l) (hlibs : libs ⊆ libs')
    (hsub : demands ⊆ more) : s.ReachedFrom t libs' more l := by
  induction h with
  | opened hd ha hl hname => exact .opened (hsub hd) ha (hlibs hl) hname
  | needed _ hl hneeds ih => exact .needed ih (hlibs hl) hneeds

theorem not_reachedFrom_nil : ¬ s.ReachedFrom t libs [] l := by
  intro h
  induction h with
  | opened hd => cases hd
  | needed _ _ _ ih => exact ih

theorem isDefault_of_answer {d : LibraryDemand} (h : s.answer t d = .ok (some l)) :
    l.isDefault = d.isDefault := by
  obtain ⟨-, ⟨path, -, hopen⟩, -⟩ := answer_eq_some.1 h
  obtain ⟨-, -, -, -, hdefault⟩ := openAt_ok hopen
  exact hdefault

end LibrarySearch

namespace LibraryCollection

open LibrarySearch

variable {s : LibrarySearch} {t : Tree} {names : List String} {c c' c₁ : LibraryCollection}
  {first more : List LibraryDemand} {k l : ResolvedLibrary}

theorem Step.isPrefix (h : Step s t c c') : c.libraries <+: c'.libraries := by
  obtain ⟨d, rest, -, hmeet⟩ := h
  obtain ⟨r, -, hc'⟩ := except_bind_eq_ok.1 hmeet
  cases r with
  | none => exact Except.ok.inj hc' ▸ List.prefix_rfl
  | some l =>
    rw [← Except.ok.inj hc']
    rcases enter_eq { c with demands := rest } l d.dependent with ⟨n, -, heq⟩ | ⟨-, heq⟩
    · refine ⟨[], ?_⟩
      rw [heq, libraries_link, List.append_nil]
    · refine ⟨[l], ?_⟩
      rw [heq, libraries_link]

theorem Runs.isPrefix (h : Runs s t c c') : c.libraries <+: c'.libraries := by
  induction h with
  | refl => exact List.prefix_rfl
  | tail _ hstep ih => exact ih.trans hstep.isPrefix

/-- Libraries of one name are one. -/
theorem Collected.eq_of_name (h : Collected s t first c) (hk : k ∈ c.libraries)
    (hl : l ∈ c.libraries) (hname : k.name = l.name) : k = l :=
  List.inj_on_of_nodup_map h.distinct hk hl hname

/-- The collection `front` is what is collected for the demands `first` alone, before the demands
`more` are met. -/
structure Front (s : LibrarySearch) (t : Tree) (first more : List LibraryDemand)
    (front c : LibraryCollection) : Prop where
  collected : Collected s t first front
  ended : front.demands = []
  rest : Runs s t { front with demands := more } c

theorem exists_front (hc : s.collect t names = .ok c)
    (hsplit : s.firstDemands t names = first ++ more) : ∃ front, Front s t first more front c := by
  have hfirst : ∀ d ∈ first, d.dependent = none := fun d hd =>
    have hd' : d ∈ s.firstDemands t names := hsplit ▸ List.mem_append_left more hd
    dependent_firstDemands d hd'
  obtain ⟨hruns, hend⟩ := collect_eq_ok.1 hc
  rw [hsplit] at hruns
  obtain ⟨front, hfront, hended, hrest⟩ := exists_runs_append hfirst hruns hend
  exact ⟨front, hfront.collected hfirst (.start s t first), hended, hrest⟩

theorem Front.subset {front : LibraryCollection} (h : Front s t first more front c) :
    front.libraries ⊆ c.libraries :=
  h.rest.isPrefix.subset

/-- A library that has the name of one in front is in front. -/
theorem Front.mem_of_name {front : LibraryCollection} (hc : c.Complete s t names)
    (h : Front s t first more front c) (hk : k ∈ front.libraries) (hl : l ∈ c.libraries)
    (hname : k.name = l.name) : l ∈ front.libraries :=
  hc.collected.eq_of_name (h.subset hk) hl hname ▸ hk

/-- What is collected for the demands in front is what they reach. -/
theorem Front.mem_iff_reachedFrom {front : LibraryCollection} (hc : c.Complete s t names)
    (h : Front s t first more front c) :
    l ∈ front.libraries ↔ s.ReachedFrom t c.libraries first l := by
  have hmet {d : LibraryDemand} (hd : d ∈ front.demands ∨ Met s t front d) : Met s t front d :=
    hd.resolve_left (by simp [h.ended])
  -- The library that a met demand opens is in front, under its name.
  have hmem {d : LibraryDemand} {k l : ResolvedLibrary} (hd : Met s t front d)
      (ha : s.answer t d = .ok (some k)) (hl : l ∈ c.libraries) (hname : k.name = l.name) :
      l ∈ front.libraries := by
    rcases hd with hnone | ⟨k', n, j, ha', hj, hjname, -⟩
    · cases ha.symm.trans hnone
    · obtain rfl := Option.some.inj (Except.ok.inj (ha.symm.trans ha'))
      exact h.mem_of_name hc (List.mem_of_getElem? hj) hl (hjname.trans hname)
  constructor
  · intro hfront
    obtain ⟨b, hb⟩ := List.getElem?_of_mem hfront
    clear hfront
    induction b using Nat.strongRecOn generalizing l with
    | ind b ih =>
      have hl := h.subset (List.mem_of_getElem? hb)
      obtain ⟨d, ha, hd | ⟨a, k, hab, hk, hd⟩⟩ := h.collected.origin b l hb
      · exact .opened hd ha hl rfl
      · obtain ⟨name, hname, rfl⟩ := List.mem_map.1 hd
        obtain ⟨hskip, hopen, hskip'⟩ := answer_eq_some.1 ha
        exact .needed (ih a hab hk) hl ⟨name, hname, hskip, l, hopen, hskip', rfl⟩
  · intro hreached
    induction hreached with
    | opened hd ha hl hname => exact hmem (hmet (h.collected.requested _ hd)) ha hl hname
    | needed _ hl hneeds ih =>
      obtain ⟨name, hname, hskip, j, hopen, hskip', hjname⟩ := hneeds
      obtain ⟨a, hk⟩ := List.getElem?_of_mem ih
      exact hmem (hmet (h.collected.listed a _ hk _ (mem_demandsOf hname)))
        (answer_eq_some.2 ⟨hskip, hopen, hskip'⟩) hl hjname

/-- The next demand behind those in front opens a library by a name that is new, so it is this library
that has the name. -/
theorem Front.eq_of_answer {front : LibraryCollection} {d : LibraryDemand}
    (hc : c.Complete s t names) (h : Front s t first (d :: more) front c)
    (ha : s.answer t d = .ok (some k)) (hl : l ∈ c.libraries) (hname : k.name = l.name)
    (hnew : l ∉ front.libraries) : l = k := by
  have hfree : front.number? k.name = none := by
    refine Option.eq_none_iff_forall_ne_some.2 fun n hn => ?_
    obtain ⟨j, hj, hjname⟩ := number?_eq_some hn
    exact hnew (h.mem_of_name hc (List.mem_of_getElem? hj) hl (hjname.trans hname))
  have hk : k ∈ c.libraries := by
    rcases ReflTransGen.cases_head_iff.1 h.rest with heq | ⟨c₂, ⟨d', rest, hd, hmeet⟩, hrest⟩
    · have hdemands := hc.met
      rw [← heq] at hdemands
      cases hdemands
    · obtain ⟨rfl, rfl⟩ := List.cons.inj hd
      rw [LibrarySearch.meet, ha] at hmeet
      obtain rfl := Except.ok.inj hmeet
      refine Runs.isPrefix hrest |>.subset ?_
      rcases enter_eq { front with demands := more } k d.dependent with ⟨n, hn, -⟩ | ⟨-, heq⟩
      · cases hfree.symm.trans hn
      · rw [heq, libraries_link]
        exact List.mem_append_right _ List.mem_cons_self
  exact hc.collected.eq_of_name hl hk hname.symm

end LibraryCollection

namespace LibrarySearch

open LibraryCollection

variable {s : LibrarySearch} {t : Tree} {names : List String} {libs : List ResolvedLibrary}
  {l : ResolvedLibrary} {c : LibraryCollection}

/-- A library that is marked was opened for a default library in front. -/
theorem exists_entry_of_isDefault {first : List LibraryDemand} {before : List Path}
    (h : Collected s t first c) (hfirst : first = names.map dependency ++ before.map defaultAt)
    (hl : l ∈ c.libraries) (hdefault : l.isDefault = true) :
    ∃ p ∈ before, s.answer t (defaultAt p) = .ok (some l) := by
  obtain ⟨b, hb⟩ := List.getElem?_of_mem hl
  obtain ⟨d, ha, hd⟩ := h.origin b l hb
  have hmark : d.isDefault = true := (isDefault_of_answer ha).symm.trans hdefault
  rcases hd with hd | ⟨a, k, -, -, hd⟩
  · rw [hfirst] at hd
    rcases List.mem_append.1 hd with hd | hd
    · obtain ⟨name, -, rfl⟩ := List.mem_map.1 hd
      cases hmark
    · obtain ⟨p, hp, rfl⟩ := List.mem_map.1 hd
      exact ⟨p, hp, ha⟩
  · obtain ⟨name, -, rfl⟩ := List.mem_map.1 hd
    cases hmark

/-- **A library is marked as a default one when a default library is the first to reach it, as
itself.** Nothing that is reached from a request is marked, in whatever order the default libraries
are met. Another library that stands among the default ones is marked unless one of those before it
depends on it, directly or through others. -/
theorem resolve_isDefault (h : s.resolve t names = .ok libs) (hl : l ∈ libs) :
    (l.isDefault = true ↔ ∃ before p after k, s.defaultPaths t = before ++ p :: after ∧
      s.answer t (defaultAt p) = .ok (some k) ∧ k.name = l.name ∧
      ¬ s.ReachedFrom t libs (names.map dependency ++ before.map defaultAt) l) ∧
    (s.ReachedFrom t libs (names.map dependency) l → l.isDefault = false) := by
  obtain ⟨c, hcollect, hperm⟩ := resolve_perm h
  have hc := collect_complete hcollect
  have hlc := hperm.subset hl
  have hsplit {before after : List Path} (hpaths : s.defaultPaths t = before ++ after) :
      s.firstDemands t names =
        (names.map dependency ++ before.map defaultAt) ++ after.map defaultAt := by
    rw [firstDemands_eq, hpaths, List.map_append, List.append_assoc]
  have hiff : l.isDefault = true ↔ ∃ before p after k, s.defaultPaths t = before ++ p :: after ∧
      s.answer t (defaultAt p) = .ok (some k) ∧ k.name = l.name ∧
      ¬ s.ReachedFrom t libs (names.map dependency ++ before.map defaultAt) l := by
    constructor
    · intro hdefault
      classical
      obtain ⟨p, hp, ha⟩ := exists_entry_of_isDefault hc.collected (firstDemands_eq s t names) hlc
        hdefault
      -- Of the default libraries that open it, the first one.
      have hfind : ((s.defaultPaths t).find?
          fun p => decide (s.answer t (defaultAt p) = .ok (some l))).isSome := by
        simpa using ⟨p, hp, ha⟩
      obtain ⟨p, hp⟩ := Option.isSome_iff_exists.1 hfind
      obtain ⟨ha, before, after, hpaths, hbefore⟩ := List.find?_eq_some_iff_append.1 hp
      refine ⟨before, p, after, l, hpaths, of_decide_eq_true ha, rfl, fun hreached => ?_⟩
      obtain ⟨front, hfront⟩ := exists_front hcollect (hsplit hpaths)
      have hmem := (hfront.mem_iff_reachedFrom hc).2
        (hreached.mono hperm.subset (List.Subset.refl _))
      obtain ⟨q, hq, hqa⟩ := exists_entry_of_isDefault hfront.collected rfl hmem hdefault
      simpa [hqa] using hbefore q hq
    · rintro ⟨before, p, after, k, hpaths, ha, hname, hnot⟩
      obtain ⟨front, hfront⟩ := exists_front hcollect (hsplit hpaths)
      have hnew : l ∉ front.libraries := fun hmem => hnot <|
        ((hfront.mem_iff_reachedFrom hc).1 hmem).mono hperm.symm.subset (List.Subset.refl _)
      obtain rfl := hfront.eq_of_answer hc ha hlc hname hnew
      exact isDefault_of_answer ha
  refine ⟨hiff, fun hreached => Bool.eq_false_iff.2 fun hdefault => ?_⟩
  obtain ⟨before, p, after, k, -, -, -, hnot⟩ := hiff.1 hdefault
  exact hnot (hreached.mono (List.Subset.refl _) (List.subset_append_left _ _))

/-- A search that finds default libraries only. -/
def amongDefaults : LibrarySearch where
  repositories := []
  target := .linuxX64
  defaultsDir := some ⟨"/libs"⟩

theorem defaultPaths_treeOf {manifests : List (String × String)} (children : List String)
    (hchildren : (treeOf manifests).children ["libs"] = children)
    (hlibs : ∀ name ∈ children, (treeOf manifests).get? ["libs", name] = some .directory ∧
      DirectoryLibrary.isLibrary (treeOf manifests) ((Files.Path.mk "/libs").join name) = true) :
    amongDefaults.defaultPaths (treeOf manifests) = children.map (Files.Path.mk "/libs").join := by
  have hplace : (treeOf manifests).place ⟨"/libs"⟩ = .ok ["libs"] := rfl
  have hdir : (treeOf manifests).get? ["libs"] = some .directory := rfl
  have hfind : DirectoryLibrary.find (treeOf manifests) ⟨"/libs"⟩ 1 =
      children.flatMap fun name => [(Files.Path.mk "/libs").join name] := by
    simp only [DirectoryLibrary.find, hplace, hdir, Nat.max_self, DirectoryLibrary.findBelow, hchildren]
    refine List.flatMap_congr fun name hname => ?_
    obtain ⟨hentry, hlibrary⟩ := hlibs name hname
    simp only [List.cons_append, List.nil_append, hentry, hlibrary, if_true]
  simp [defaultPaths, amongDefaults, hfind, List.map_eq_flatMap]

/-- A default library that another one depends on is marked when it comes first by its name, and not
when it comes last, whatever else is asked for. -/
theorem resolve_isDefault_listed :
    let t := treeOf [("app", "depends=core"), ("core", "")]
    let t' := treeOf [("core", ""), ("net", "depends=core")]
    (∃ libs l, amongDefaults.resolve t [] = .ok libs ∧ l ∈ libs ∧
      l.path ∈ amongDefaults.defaultPaths t ∧ ¬ amongDefaults.ReachedFrom t libs [] l ∧
      l.isDefault = false) ∧
    ∃ libs, amongDefaults.resolve t' [] = .ok libs ∧ libs.map (·.name) = ["core", "net"] ∧
      ∀ l ∈ libs, l.isDefault = true := by
  intro t t'
  have hpaths : amongDefaults.defaultPaths t = [⟨"/libs/app"⟩, ⟨"/libs/core"⟩] :=
    defaultPaths_treeOf ["app", "core"] (List.mergeSort_of_pairwise (by decide))
      (by decide +kernel)
  have hpaths' : amongDefaults.defaultPaths t' = [⟨"/libs/core"⟩, ⟨"/libs/net"⟩] :=
    defaultPaths_treeOf ["core", "net"] (List.mergeSort_of_pairwise (by decide))
      (by decide +kernel)
  have hlibs : (amongDefaults.resolve t []).map (·.map fun l => (l.path, l.isDefault)) =
      .ok [(⟨"/libs/core"⟩, false), (⟨"/libs/app"⟩, true)] := by
    simp only [resolve, collect, firstDemands_eq, hpaths]
    decide +kernel
  have hlibs' : (amongDefaults.resolve t' []).map (·.map fun l => (l.name, l.isDefault)) =
      .ok [("core", true), ("net", true)] := by
    simp only [resolve, collect, firstDemands_eq, hpaths']
    decide +kernel
  obtain ⟨libs, h, hmap⟩ := except_map_eq_ok.1 hlibs
  obtain ⟨libs', h', hmap'⟩ := except_map_eq_ok.1 hlibs'
  obtain ⟨l, rest, rfl, hl, -⟩ := List.map_eq_cons_iff.1 hmap
  obtain ⟨hpath, hdefault⟩ := Prod.mk.inj hl
  refine ⟨⟨_, l, h, List.mem_cons_self, ?_, not_reachedFrom_nil, hdefault⟩, libs', h', ?_, ?_⟩
  · rw [hpath, hpaths]
    exact List.mem_cons_of_mem _ List.mem_cons_self
  · have hnames := congrArg (List.map Prod.fst) hmap'
    rw [List.map_map] at hnames
    exact hnames
  · have hall : ∀ mark ∈ libs'.map fun l => (l.name, l.isDefault), mark.2 = true := by
      rw [hmap']
      decide
    exact fun l hl => hall _ (List.mem_map_of_mem hl)

/-- With a request, the library that it depends on is not marked, and one that nothing reaches is. -/
theorem resolve_isDefault_net :
    let t := treeOf [("app", "depends=core"), ("core", ""), ("log", ""), ("net", "depends=log")]
    ∃ libs k l, amongDefaults.resolve t ["net"] = .ok libs ∧ k ∈ libs ∧ k.name = "log" ∧ l ∈ libs ∧
      l.name = "app" ∧ (amongDefaults.ReachedFrom t libs [dependency "net"] k → k.isDefault = false) ∧
      ∃ before p after j, amongDefaults.defaultPaths t = before ++ p :: after ∧
        amongDefaults.answer t (defaultAt p) = .ok (some j) ∧ j.name = l.name ∧
        ¬ amongDefaults.ReachedFrom t libs (["net"].map dependency ++ before.map defaultAt) l := by
  intro t
  have hpaths : amongDefaults.defaultPaths t =
      [⟨"/libs/app"⟩, ⟨"/libs/core"⟩, ⟨"/libs/log"⟩, ⟨"/libs/net"⟩] :=
    defaultPaths_treeOf ["app", "core", "log", "net"]
      (List.mergeSort_of_pairwise (by decide)) (by decide +kernel)
  have hlibs : (amongDefaults.resolve t ["net"]).map (·.map fun l => (l.name, l.isDefault)) =
      .ok [("log", false), ("net", false), ("core", false), ("app", true)] := by
    simp only [resolve, collect, firstDemands_eq, hpaths]
    decide +kernel
  obtain ⟨libs, h, hmap⟩ := except_map_eq_ok.1 hlibs
  have hmem (mark : String × Bool)
      (hmark : mark ∈ [("log", false), ("net", false), ("core", false), ("app", true)]) :
      ∃ l ∈ libs, (l.name, l.isDefault) = mark := List.mem_map.1 (hmap ▸ hmark)
  obtain ⟨k, hk, hkmark⟩ := hmem ("log", false) (by decide)
  obtain ⟨l, hl, hlmark⟩ := hmem ("app", true) (by decide)
  exact ⟨libs, k, l, h, hk, (Prod.mk.inj hkmark).1, hl, (Prod.mk.inj hlmark).1,
    (resolve_isDefault h hk).2, (resolve_isDefault h hl).1.1 (Prod.mk.inj hlmark).2⟩

end LibrarySearch

end SymbolAtlas
