import SymbolAtlas.Proofs.Symbols.Footprint
import SymbolAtlas.Proofs.Symbols.Listing
import SymbolAtlas.Proofs.Symbols.SubPackages
import SymbolAtlas.Report.Inspection

/-!
# What an inspection reads

An inspection that lists names comes to the parts of the bound package four times, once for each of
them and once more through every alias. They are read once all the same, and nothing but parts is read.

* `Store.ReadsParts`: what reading parts changes in a store;
* `ModuleReport.summaries_answer`, `ModuleReport.summaries_touch`: what the fragments are reported as,
  and which parts are read for it;
* `ModuleReport.decodes_exactly`: what a report counts, and what it says of aliases.
-/

namespace SymbolAtlas

open Query

/-! ## Reading parts and nothing else -/

/-- The store `t` is `s` after parts were read: no class was looked for, and none was missed. -/
structure Store.ReadsParts (s t : Store) : Prop where
  changes : s.Changes t
  classes : t.classes = s.classes
  missing : t.missing = s.missing

namespace Store.ReadsParts

variable {s t u : Store}

theorem refl (s : Store) : s.ReadsParts s :=
  ⟨.refl s, rfl, rfl⟩

theorem trans (h₁ : s.ReadsParts t) (h₂ : t.ReadsParts u) : s.ReadsParts u :=
  ⟨h₁.changes.trans h₂.changes, h₂.classes.trans h₁.classes, h₂.missing.trans h₁.missing⟩

instance : Trans ReadsParts ReadsParts ReadsParts := ⟨trans⟩

theorem sound (h : s.ReadsParts t) (hs : s.Sound) : t.Sound :=
  h.changes.grows.sound hs

theorem knows {c : Services} (h : s.ReadsParts t) (hc : s.Knows c) : t.Knows c :=
  h.changes.grows.knows_iff.2 hc

end Store.ReadsParts

section

variable {s t : Store} {c : Services}

theorem StoredFragment.scope_readsParts {f : StoredFragment} (hs : s.Sound) (hf : s.Holds c f) :
    Keeps Store.ReadsParts f.scope s := by
  have hsame : (f.scope.runOn s).2.classes = s.classes ∧ (f.scope.runOn s).2.missing = s.missing := by
    cases hp : s.payloads.get? f.identity with
    | some p => simp [runOn_scope_of_populated hp]
    | none =>
      rw [runOn_scope hs hf hp]
      cases f.library.payload f.package f.part with
      | error fault => exact ⟨rfl, rfl⟩
      | ok bytes => cases f.reading c <;> exact ⟨rfl, rfl⟩
  exact ⟨f.scope_keeps hs hf, hsame.1, hsame.2⟩

theorem StoredFragment.classNames_readsParts {f : StoredFragment} (hs : s.Sound) (hf : s.Holds c f) :
    Keeps Store.ReadsParts f.classNames s :=
  (f.scope_readsParts hs hf).bind fun _ t _ _ => .refl t

/-- Names are listed from the parts alone, also those of an alias. -/
theorem Fragment.classNames_readsParts {f : Fragment} (hs : s.Sound) (hc : s.Knows c)
    (hf : f ∈ c.provider.fragments) : Keeps Store.ReadsParts f.classNames s := by
  cases f with
  | stored f => exact f.classNames_readsParts hs ⟨hc, Provider.stored_mem.1 hf⟩
  | aliasing a =>
    refine Keeps.bind (Keeps.mapM Store.ReadsParts.refl fun f hm t ht => ?_) fun _ t _ _ => .refl t
    exact f.classNames_readsParts (ht.sound hs) ⟨ht.knows hc, hs.targets c hc a hf f hm⟩
  | exported e => exact .refl s

/-- The parts whose names a fragment lists. -/
def Fragment.parts : Fragment → List StoredFragment
  | stored f => [f]
  | aliasing a => a.targets
  | exported _ => []

theorem StoredFragment.classNames_touches {f : StoredFragment} (hs : s.Sound) (hf : s.Holds c f) :
    Touches (· = f) f.classNames s :=
  (f.scope_touches hs hf).thenNothing fun _ t _ => .pure' _ t

theorem Fragment.classNames_touches {f : Fragment} (hs : s.Sound) (hc : s.Knows c)
    (hf : f ∈ c.provider.fragments) : Touches (· ∈ f.parts) f.classNames s := by
  cases f with
  | stored f =>
    have hf := f.classNames_touches hs ⟨hc, Provider.stored_mem.1 hf⟩
    exact hf.congr fun _ => List.mem_singleton
  | aliasing a =>
    have hall : Touches (fun g => ∃ f ∈ a.targets, g = f) (a.targets.mapM StoredFragment.classNames) s :=
      Touches.mapM Store.ReadsParts.refl fun f hm t ht =>
        have hf : t.Holds c f := ⟨ht.knows hc, hs.targets c hc a hf f hm⟩
        ⟨f.classNames_readsParts (ht.sound hs) hf, f.classNames_touches (ht.sound hs) hf⟩
    exact (hall.thenNothing fun _ t _ => .pure' _ t).congr fun g => by simp [parts]
  | exported e => exact (Touches.pure' _ s).congr fun g => by simp [parts]

/-- A module that is loaded into the empty store, and of which parts are read, counts decoder calls for
these parts and nothing else. -/
theorem Store.Loads.countersOf {m : Module} (h : Store.Loads {} m c s) (ht : s.ReadsParts t) :
    t.countersOf c.counters = { packagesDecoded := (t.callsOf c).length } := by
  have hreachable : t.Reachable := Store.Reachable.steps (.single (.loaded h)) ht.changes.steps
  have howns : t.Owns c := ht.changes.owns (h.owns fun d ⟨_, hd⟩ => by cases hd)
  have hclasses : t.classIds c = [] := by
    rw [Store.classIds_congr ht.classes, Store.classIds_congr h.classes]
    rfl
  have hmissing : t.missingCount c = 0 := by
    rw [Store.missingCount_congr ht.missing, Store.missingCount_congr h.missing]
    rfl
  have hcounted := hreachable.counted
  have hpackages : (t.countersOf c.counters).packagesDecoded = (t.callsOf c).length :=
    hcounted.packages c howns
  rw [← hpackages, Counters.mk.injEq]
  exact ⟨rfl, (hcounted.classes c howns).trans (congrArg List.length hclasses),
    (hcounted.missing c howns).trans hmissing⟩

end

/-- An alias lists what its targets list, each name once. -/
theorem AliasFragment.namesOf_eq_ok {c : Services} {a : AliasFragment} {names : List Name}
    (h : a.namesOf c = .ok names) : names.Nodup ∧ ∀ name, name ∈ names ↔
      ∃ f ∈ a.targets, ∃ p, f.reading c = .ok p ∧ name ∈ p.classNames := by
  obtain ⟨lists, hlists, h⟩ := except_bind_eq_ok.1 h
  obtain rfl := Except.ok.inj h
  exact ⟨nodup_eraseDups _, fun name => List.mem_eraseDups.trans (StoredFragment.mem_names hlists)⟩

/-! ## Summaries -/

namespace ModuleReport

def labeled (r : ModuleReport) (label : String) : List FragmentSummary :=
  r.fragments.filter (·.label == label)

/-- What a fragment with these names is reported as. -/
def summaryOf (f : Fragment) (names : List Name) : FragmentSummary where
  package := f.package.text
  label := f.label
  part := f.stored?.map (·.part)
  classNames := (names.map (·.text)).mergeSort fun a b => decide (a ≤ b)

def listedOf (c : Services) (listNames : Bool) (f : Fragment) : Except LoadError (List Name) :=
  if listNames then f.namesOf c else pure []

/-- The report has all fragments of the services as the library says. -/
def Describes (r : ModuleReport) (c : Services) (listNames : Bool) : Prop :=
  c.provider.fragments.mapM (fun f => summaryOf f <$> listedOf c listNames f) = .ok r.fragments

variable {s : Store} {c : Services} {listNames : Bool} {f : Fragment} {names : List Name}

theorem mem_summaryOf {text : String} : text ∈ (summaryOf f names).classNames ↔ ⟨text⟩ ∈ names := by
  rw [summaryOf, List.mem_mergeSort, List.mem_map]
  constructor
  · rintro ⟨name, hname, rfl⟩
    exact hname
  · exact fun h => ⟨_, h, rfl⟩

theorem summarize_answers (hs : s.Sound) (hc : s.Knows c) (hf : f ∈ c.provider.fragments) :
    Answers Store.ReadsParts (summarize listNames f) s id (summaryOf f <$> listedOf c listNames f) := by
  have hnames : Answers Store.ReadsParts (if listNames then f.classNames else pure []) s id
      (listedOf c listNames f) := by
    cases listNames with
    | false => exact .pure' (.refl s) []
    | true => exact ⟨f.classNames_readsParts hs hc hf, (f.classNames_answers hs hc hf).value⟩
  have hsummary : summarize listNames f =
      summaryOf f <$> (if listNames then f.classNames else pure []) := by
    rw [map_eq_pure_bind]
    cases listNames <;> rfl
  rw [hsummary]
  exact hnames.map fun names => rfl

/-- Listing the names of all fragments looks into all parts, and into some of them more than once. -/
theorem summaries_touch (hs : s.Sound) (hc : s.Knows c) :
    Touches (· ∈ c.provider.storedFragments) (c.provider.fragments.mapM (summarize true)) s := by
  have hall : Touches (fun g => ∃ f ∈ c.provider.fragments, g ∈ f.parts)
      (c.provider.fragments.mapM (summarize true)) s := by
    refine Touches.mapM Store.ReadsParts.refl fun f hf t ht => ?_
    have hs := ht.sound hs
    have hc := ht.knows hc
    exact ⟨(summarize_answers hs hc hf).keeps,
      (f.classNames_touches hs hc hf).thenNothing fun _ u _ => .pure' _ u⟩
  refine hall.congr fun g => ⟨fun hg => ?_, ?_⟩
  · exact ⟨.stored g, Provider.stored_mem.2 hg, List.mem_singleton_self g⟩
  · rintro ⟨f | a | e, hf, hg⟩
    · exact List.mem_singleton.1 hg ▸ Provider.stored_mem.1 hf
    · exact hs.targets c hc a hf g hg
    · cases hg

/-- Fragments are reported as the library says, whatever was read before. -/
theorem summaries_answer (hs : s.Sound) (hc : s.Knows c) :
    Answers Store.ReadsParts (c.provider.fragments.mapM (summarize listNames)) s id
      (c.provider.fragments.mapM fun f => summaryOf f <$> listedOf c listNames f) := by
  rw [← List.map_id_fun]
  exact .mapM Store.ReadsParts.refl fun f hf t ht => summarize_answers (ht.sound hs) (ht.knows hc) hf

/-! ## Reports -/

variable {t : Files.Tree} {path : Files.Path} {library : Library} {load : LoadOptions → Query Module}
  {options : LoadOptions} {r : ModuleReport}

/-- An inspection is a report on a directory that is loaded. -/
theorem inspect_eq_ok {settings : LanguageSettings} (h : inspect t settings listNames path = .ok r) :
    ∃ library load, loadDirectory t path = .ok (library, load) ∧
      ((make path library load { settings } listNames).runOn {}).1 = .ok r := by
  obtain ⟨⟨library, load⟩, hload, hreport⟩ := except_bind_eq_ok.1 h
  exact ⟨library, load, hload, except_mapError_eq_ok.1 hreport⟩

/-- A report is made in two stages: a module is loaded, and then its fragments are summarized. -/
theorem make_stages (hload : loadDirectory t path = .ok (library, load))
    (h : ((make path library load options listNames).runOn {}).1 = .ok r) :
    ∃ m c s u, library.Gives c ∧ Store.Loads {} m c s ∧
      (c.provider.fragments.mapM (summarize listNames)).runOn s = (.ok r.fragments, u) ∧
      r.package = library.manifest.package.map (·.text) ∧ r.counters = u.countersOf c.counters := by
  obtain ⟨directory, -, hlibrary⟩ := except_bind_eq_ok.1 hload
  obtain ⟨rfl, rfl⟩ := Prod.mk.inj (Except.ok.inj hlibrary)
  obtain ⟨u, hrun⟩ : ∃ u, (make path _ _ options listNames).runOn {} = (.ok r, u) :=
    ⟨_, Prod.ext h rfl⟩
  obtain ⟨m, s, hm, hrun⟩ := runOn_bind_eq_ok hrun
  rcases Module.load_cases Store.sound_start (directory.toLibrary t) options with
    ⟨e, s', -, hfails, -⟩ | ⟨m', c, s', hservices, hloaded, hloads⟩
  · cases (Prod.mk.inj (hfails.symm.trans hm)).1
  obtain ⟨hm', rfl⟩ := Prod.mk.inj (hloaded.symm.trans hm)
  obtain rfl := Except.ok.inj hm'
  have hc := hloads.services?_self
  have hfragments : m'.fragments.runOn s' = (.ok c.provider.fragments, s') := by
    rw [Module.fragments, runOn_bind_ok (Module.runOn_provider hc)]
    rfl
  rw [runOn_bind_ok hfragments] at hrun
  obtain ⟨summaries, v, hsummaries, hrun⟩ := runOn_bind_eq_ok hrun
  have hv : s'.ReadsParts v :=
    (summaries_answer (hloads.sound Store.sound_start) (Module.knows_of_services? hc)).keeps.leads
      hsummaries
  have hc' : m'.services? v = some c := (hv.changes.grows.services? m').trans hc
  rw [runOn_get_bind, runOn_bind_ok (Module.runOn_services hc')] at hrun
  obtain ⟨hr, rfl⟩ := Prod.mk.inj hrun
  obtain rfl := Except.ok.inj hr
  exact ⟨m', c, s', v, ⟨options, hservices⟩, hloads, hsummaries, rfl, rfl⟩

/-- Where names are listed, all parts are decoded for them, and each of them once. -/
theorem length_callsOf {m : Module} {s u : Store} {summaries : List FragmentSummary}
    (hloads : Store.Loads {} m c s)
    (h : (c.provider.fragments.mapM (summarize listNames)).runOn s = (.ok summaries, u)) :
    (u.callsOf c).length = if listNames then c.provider.storedFragments.length else 0 := by
  have hs := hloads.sound Store.sound_start
  have hc := Module.knows_of_services? hloads.services?_self
  have hu := ((summaries_answer hs hc).value_of_ok h).2
  have hreachable : u.Reachable := Store.Reachable.steps (.single (.loaded hloads)) hu.changes.steps
  cases listNames with
  | false =>
    have hpure : summarize false = fun f => pure (summaryOf f []) := rfl
    rw [hpure, List.mapM_pure] at h
    obtain ⟨-, rfl⟩ := Prod.mk.inj h
    rw [Store.callsOf, hloads.decoderCalls]
    rfl
  | true =>
    have hperm := hreachable.callsOf_perm (hu.knows hc) ((summaries_touch hs hc).fills _ u h)
    rw [hperm.length_eq, List.length_map]
    rfl

namespace Describes

/-- One fragment is reported as deserialized for each part. -/
theorem length_deserialized (h : r.Describes c listNames) :
    (r.labeled "deserialized").length = c.provider.storedFragments.length := by
  have hlabels : r.fragments.map (·.label) = c.provider.fragments.map Fragment.label := by
    refine map_mapM h fun f g hg => ?_
    obtain ⟨names, -, rfl⟩ := except_map_eq_ok.1 hg
    rfl
  have hstored (f : Fragment) : (f.label == "deserialized") = f.stored?.isSome := by
    cases f <;> rfl
  calc (r.labeled "deserialized").length
      = (r.fragments.map (·.label)).countP (· == "deserialized") := by
        rw [labeled, ← List.countP_eq_length_filter, List.countP_map]
        rfl
    _ = c.provider.fragments.countP (·.stored?.isSome) := by
        rw [hlabels, List.countP_map]
        exact congrArg (List.countP · _) (funext hstored)
    _ = c.provider.storedFragments.length := (List.length_filterMap_eq_countP ..).symm

theorem mem_labeled (h : r.Describes c listNames) {label : String} {g : FragmentSummary} :
    g ∈ r.labeled label ↔ ∃ f ∈ c.provider.fragments, f.label = label ∧
      ∃ names, listedOf c listNames f = .ok names ∧ summaryOf f names = g := by
  rw [labeled, List.mem_filter, mem_mapM h, beq_iff_eq]
  constructor
  · rintro ⟨⟨f, hf, hg⟩, hlabel⟩
    obtain ⟨names, hnames, rfl⟩ := except_map_eq_ok.1 hg
    exact ⟨f, hf, hlabel, names, hnames, rfl⟩
  · rintro ⟨f, hf, hlabel, names, hnames, rfl⟩
    exact ⟨⟨f, hf, except_map_eq_ok.2 ⟨names, hnames, rfl⟩⟩, hlabel⟩

/-- The parts are reported with the names that they declare. -/
theorem mem_deserialized (h : r.Describes c true) {g : FragmentSummary} :
    g ∈ r.labeled "deserialized" ↔ ∃ f ∈ c.provider.storedFragments, ∃ p, f.reading c = .ok p ∧
      summaryOf (.stored f) p.classNames = g := by
  rw [h.mem_labeled]
  constructor
  · rintro ⟨f | a | e, hf, hlabel, names, hnames, rfl⟩
    · obtain ⟨p, hp, rfl⟩ := StoredFragment.names_eq_ok.1 hnames
      exact ⟨f, Provider.stored_mem.1 hf, p, hp, rfl⟩
    · simp [Fragment.label] at hlabel
    · simp [Fragment.label] at hlabel
  · rintro ⟨f, hf, p, hp, rfl⟩
    exact ⟨.stored f, Provider.stored_mem.2 hf, rfl, _, StoredFragment.names_eq_ok.2 ⟨p, hp, rfl⟩, rfl⟩

/-- The aliases are reported with the names that their targets declare. -/
theorem exists_alias (h : r.Describes c true) {g : FragmentSummary} (hg : g ∈ r.labeled "alias") :
    ∃ a, .aliasing a ∈ c.provider.fragments ∧ ∃ names, a.namesOf c = .ok names ∧
      summaryOf (.aliasing a) names = g := by
  obtain ⟨f | a | e, hf, hlabel, names, hnames, rfl⟩ := h.mem_labeled.1 hg
  · simp [Fragment.label] at hlabel
  · exact ⟨a, hf, names, hnames, rfl⟩
  · simp [Fragment.label] at hlabel

end Describes

/-- **An inspection decodes what it must.** Whatever library directory is loaded, into a store with
nothing in it, and whatever the options are: when the report is made, it counts one decoded package for
each part if names are listed, and none otherwise. It counts no class that was read and none that was
missed. An alias is reported with the names of the parts of the bound package, sorted, each once. -/
theorem decodes_exactly (hload : loadDirectory t path = .ok (library, load))
    (hreport : ((make path library load options listNames).runOn {}).1 = .ok r) :
    r.counters =
        { packagesDecoded := if listNames then (r.labeled "deserialized").length else 0,
          classesRead := 0, missingClasses := 0 } ∧
      (listNames = true → ∀ a ∈ r.labeled "alias", a.classNames.Pairwise (· < ·) ∧
        ∃ package, r.package = some package ∧ ∀ name, name ∈ a.classNames ↔
          ∃ f ∈ r.labeled "deserialized", f.package = package ∧ name ∈ f.classNames) := by
  obtain ⟨m, c, s, u, hgives, hloads, hrun, hpackage, hcounters⟩ := make_stages hload hreport
  have hc := Module.knows_of_services? hloads.services?_self
  obtain ⟨hr, hu⟩ := (summaries_answer (hloads.sound Store.sound_start) hc).value_of_ok hrun
  have hr : r.Describes c listNames := hr
  constructor
  · rw [hcounters, hloads.countersOf hu, length_callsOf hloads hrun, hr.length_deserialized]
  · rintro rfl g hg
    obtain ⟨a, ha, names, hnames, rfl⟩ := hr.exists_alias hg
    obtain ⟨hnodup, hmem⟩ := AliasFragment.namesOf_eq_ok hnames
    obtain ⟨e, he⟩ := hgives.of_synthetic ha rfl
    have htargets := (he.binds hloads.assembled).targets a ha
    have htexts : (names.map (·.text)).Nodup := hnodup.map fun x y hxy => congrArg Name.mk hxy
    refine ⟨Text.pairwise_mergeSort htexts, e.package.text, ?_, fun name => ?_⟩
    · rw [hpackage, he.package]
      rfl
    rw [mem_summaryOf, hmem, htargets]
    constructor
    · rintro ⟨f, hf, p, hp, hname⟩
      obtain ⟨hf, hbound⟩ := List.mem_filter.1 hf
      exact ⟨_, hr.mem_deserialized.2 ⟨f, hf, p, hp, rfl⟩,
        congrArg QualName.text (beq_iff_eq.1 hbound), mem_summaryOf.2 hname⟩
    · rintro ⟨g, hg, hbound, hname⟩
      obtain ⟨f, hf, p, hp, rfl⟩ := hr.mem_deserialized.1 hg
      exact ⟨f, List.mem_filter.2 ⟨hf, beq_iff_eq.2 (QualName.text_inj.1 hbound)⟩, p, hp,
        mem_summaryOf.1 hname⟩

/-- A library directory of native bindings whose package has two parts. -/
def mediaDirectory : Files.Tree :=
  let manifest := (Manifest.empty.withPackage "media").withInterop true
  let part (name : String) : Payload := ⟨"media", .current, [⟨name, .plain, 0, [], []⟩], [], []⟩
  ⟨⟨[(["media"], .directory),
    (["media", "manifest"], .file (Text.bytesOfText manifest.render)),
    (["media", "linkdata"], .directory),
    (["media", "linkdata", "module"], .file (Header.mk "media" ["media", "media"]).file),
    (["media", "linkdata", "package_media"], .directory),
    (["media", "linkdata", "package_media", "0"], .file (part "Track").write),
    (["media", "linkdata", "package_media", "1"], .file (part "Clip").write)]⟩, []⟩

/-- The parts are decoded once, though each of them is shown four times. -/
theorem decodes_exactly_media : ∃ library load r,
    loadDirectory mediaDirectory ⟨"media"⟩ = .ok (library, load) ∧
    ((make ⟨"media"⟩ library load {} true).runOn {}).1 = .ok r ∧
    r.counters = { packagesDecoded := 2 } ∧ r.labeled "alias" ≠ [] ∧
    ∀ a ∈ r.labeled "alias", a.classNames.Pairwise (· < ·) := by
  have hinspect : (inspect mediaDirectory {} true ⟨"media"⟩).toOption.any (fun r =>
      (r.labeled "deserialized").length == 2 && !(r.labeled "alias").isEmpty) = true := by
    decide +kernel
  rcases hr : inspect mediaDirectory {} true ⟨"media"⟩ with e | r
  · rw [hr] at hinspect
    cases hinspect
  rw [hr] at hinspect
  obtain ⟨hlength, halias⟩ := Bool.and_eq_true_iff.1 hinspect
  obtain ⟨library, load, hload, hreport⟩ := inspect_eq_ok hr
  obtain ⟨hcounters, hnames⟩ := decodes_exactly hload hreport
  rw [if_pos rfl, beq_iff_eq.1 hlength] at hcounters
  refine ⟨library, load, r, hload, hreport, hcounters, ?_, fun a ha => (hnames rfl a ha).1⟩
  rintro hnil
  rw [hnil] at halias
  cases halias

end ModuleReport

end SymbolAtlas
