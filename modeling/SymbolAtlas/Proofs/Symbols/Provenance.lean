import SymbolAtlas.Proofs.Symbols.Stability

/-!
# Where services come from

Whatever services a module has in a session, loading a library made them. The library says which
fragments they have: parts of packages and, for native bindings, the aliases of one package and the
declarations that are exported from it.

* `Library.Gives`: loading the library makes these services;
* `Library.Gives.interop`: the exported declarations of native bindings are the last fragment;
* `Session.Reachable.gives`: all services in a session are given by libraries;
* `Module.Presents`: the module has the services of the library, from when it is loaded.
-/

namespace SymbolAtlas

open Query Relation

theorem ForwardNamespace.mem_all (space : ForwardNamespace) : space ∈ ForwardNamespace.all := by
  cases space <;> decide

/-- Loading the library makes these services, identities aside. -/
def Library.Gives (l : Library) (c : Services) : Prop :=
  ∃ options, l.servicesOf options = .ok c.anonymous

/-- The module has the services that the library gives. -/
def Module.Presents (m : Module) (s : Store) (l : Library) : Prop :=
  ∃ c, m.services? s = some c ∧ l.Gives c

/-- The parts that the header of the library lists, in its order. -/
def Library.Lists (l : Library) (stored : List StoredFragment) : Prop :=
  ∃ bytes header reports, l.header = .ok bytes ∧ Header.parse l.name bytes = .ok header ∧
    stored = l.storedOf header reports

namespace Library

variable {l : Library} {c : Services}

theorem Gives.fragments (h : l.Gives c) :
    ∃ stored synthetic, l.Lists stored ∧ l.syntheticOf stored = .ok synthetic ∧
      c.provider.fragments.map Fragment.anonymous = stored.map .stored ++ synthetic := by
  obtain ⟨options, h⟩ := h
  obtain ⟨bytes, hbytes, h⟩ := except_bind_eq_ok.1 h
  obtain ⟨header, hheader, h⟩ := except_bind_eq_ok.1 h
  obtain ⟨synthetic, hsynthetic, h⟩ := except_bind_eq_ok.1 h
  have hprovider : c.provider.anonymous =
      ⟨0, [(l.storedOf header options.reports).map .stored, synthetic]⟩ :=
    congrArg Services.provider (Except.ok.inj h).symm
  have hlists : l.Lists (l.storedOf header options.reports) :=
    ⟨bytes, header, options.reports, except_mapError_eq_ok.1 hbytes, hheader, rfl⟩
  refine ⟨_, synthetic, hlists, hsynthetic, ?_⟩
  rw [← Provider.fragments_anonymous, hprovider]
  simp [Provider.fragments]

/-- The parts of a module are those that the header of its library lists. -/
theorem Gives.lists (h : l.Gives c) :
    l.Lists (c.provider.storedFragments.map StoredFragment.anonymous) := by
  obtain ⟨stored, synthetic, hlists, hsynthetic, hfragments⟩ := h.fragments
  rw [← Provider.fragments_anonymous] at hfragments
  have hstored := Provider.storedFragments_layers hfragments (stored?_of_syntheticOf hsynthetic)
  rwa [← Provider.storedFragments_anonymous, hstored]

theorem Lists.library {stored : List StoredFragment} (h : l.Lists stored) {f : StoredFragment}
    (hf : f ∈ stored) : f.library = l := by
  obtain ⟨bytes, header, reports, -, -, rfl⟩ := h
  obtain ⟨part, -, rfl⟩ := List.mem_map.1 hf
  rfl

/-- All parts of a module are parts of its library. -/
theorem Gives.library (h : l.Gives c) {f : StoredFragment} (hf : f ∈ c.provider.storedFragments) :
    f.library = l := by
  have hanonymous : f.anonymous.library = l := h.lists.library (List.mem_map_of_mem hf)
  exact hanonymous

theorem stored_of_anonymous {fragments : List Fragment} {stored : List StoredFragment}
    (h : fragments.map Fragment.anonymous = stored.map .stored) :
    ∃ parts : List StoredFragment, fragments = parts.map .stored := by
  induction fragments generalizing stored with
  | nil => exact ⟨[], rfl⟩
  | cons f rest ih =>
    obtain ⟨g, stored, rfl, hf, hrest⟩ := List.map_eq_cons_iff.1 h.symm
    obtain ⟨parts, rfl⟩ := ih hrest.symm
    cases f with
    | stored f => exact ⟨f :: parts, rfl⟩
    | aliasing a => cases hf
    | exported e => cases hf

theorem aliases_of_anonymous {fragments : List Fragment} {spaces : List ForwardNamespace}
    {targets : List StoredFragment}
    (h : fragments.map Fragment.anonymous = spaces.map fun space => .aliasing ⟨space, targets, none⟩) :
    ∃ aliases : List AliasFragment, fragments = aliases.map .aliasing ∧
      aliases.map (·.space) = spaces := by
  induction fragments generalizing spaces with
  | nil => exact ⟨[], rfl, (List.map_eq_nil_iff.1 h.symm).symm⟩
  | cons f rest ih =>
    obtain ⟨space, spaces, rfl, hf, hrest⟩ := List.map_eq_cons_iff.1 h.symm
    obtain ⟨aliases, rfl, rfl⟩ := ih hrest.symm
    cases f with
    | stored f => cases hf
    | aliasing a =>
      obtain ⟨rfl, -⟩ := AliasFragment.mk.inj (Fragment.aliasing.inj hf)
      exact ⟨a :: aliases, rfl, rfl⟩
    | exported e => cases hf

/-- A library that binds no native declarations gives parts of packages only. -/
theorem Gives.stored (h : l.Gives c) (hplain : l.manifest.isInterop = false) :
    ∃ parts : List StoredFragment, c.provider.fragments = parts.map .stored := by
  obtain ⟨stored, synthetic, -, hsynthetic, hfragments⟩ := h.fragments
  rw [syntheticOf, hplain] at hsynthetic
  obtain rfl := Except.ok.inj hsynthetic
  rw [List.append_nil] at hfragments
  exact stored_of_anonymous hfragments

/-- The library has aliases for all reserved namespaces beside its parts, and exports declarations
from its package with the last fragment. -/
structure Exports (l : Library) (c : Services) (e : ExportedFragment) : Prop where
  layers : ∃ (parts : List StoredFragment) (aliases : List AliasFragment),
    c.provider.fragments = parts.map .stored ++ (aliases.map .aliasing ++ [.exported e]) ∧
      aliases.map (·.space) = ForwardNamespace.all
  package : l.manifest.package = some e.package
  declarations : e.declarations = l.manifest.exportedForwardDeclarations

theorem Exports.mem {e : ExportedFragment} (h : l.Exports c e) : .exported e ∈ c.provider.fragments := by
  obtain ⟨parts, aliases, hfragments, -⟩ := h.layers
  simp [hfragments]

/-- Every reserved namespace has an alias. -/
theorem Exports.exists_alias {e : ExportedFragment} (h : l.Exports c e) (space : ForwardNamespace) :
    ∃ a, .aliasing a ∈ c.provider.fragments ∧ a.space = space := by
  obtain ⟨parts, aliases, hfragments, hspaces⟩ := h.layers
  obtain ⟨a, ha, hspace⟩ := List.mem_map.1 (hspaces ▸ space.mem_all)
  exact ⟨a, by simp [hfragments, ha], hspace⟩

/-- The library's package is the one that aliases show and that declarations are exported from. -/
theorem Exports.binds {e : ExportedFragment} (h : l.Exports c e) (hc : c.Assembled) :
    c.Binds e.package := by
  obtain ⟨package, htargets, hexported⟩ := hc.interop
  obtain rfl := hexported e h.mem
  exact ⟨htargets, hexported⟩

theorem Gives.interop (h : l.Gives c) (hinterop : l.manifest.isInterop = true) :
    ∃ e, l.Exports c e := by
  obtain ⟨stored, synthetic, -, hsynthetic, hfragments⟩ := h.fragments
  rw [syntheticOf, hinterop] at hsynthetic
  cases hpackage : l.manifest.package with
  | none =>
    rw [hpackage] at hsynthetic
    cases hsynthetic
  | some package =>
    rw [hpackage] at hsynthetic
    obtain rfl := Except.ok.inj hsynthetic
    obtain ⟨first, rest, hsplit, hfirst, hrest⟩ := List.map_eq_append_iff.1 hfragments
    obtain ⟨shown, last, rfl, hshown, hlast⟩ := List.map_eq_append_iff.1 hrest
    obtain ⟨parts, rfl⟩ := stored_of_anonymous hfirst
    obtain ⟨aliases, rfl, hspaces⟩ := aliases_of_anonymous hshown
    obtain ⟨f, rest, rfl, hf, hnil⟩ := List.map_eq_cons_iff.1 hlast
    obtain rfl := List.map_eq_nil_iff.1 hnil
    cases f with
    | stored g => cases hf
    | aliasing a => cases hf
    | exported e =>
      obtain ⟨-, rfl, hdeclarations⟩ := ExportedFragment.mk.inj (Fragment.exported.inj hf)
      exact ⟨e, ⟨parts, aliases, hsplit, hspaces⟩, hpackage, hdeclarations⟩

/-- Declarations are exported by libraries of native bindings. -/
theorem Gives.exported (h : l.Gives c) {e : ExportedFragment}
    (he : .exported e ∈ c.provider.fragments) : l.Exports c e := by
  cases hinterop : l.manifest.isInterop with
  | false =>
    obtain ⟨parts, hparts⟩ := h.stored hinterop
    simp [hparts] at he
  | true =>
    obtain ⟨k, hk⟩ := h.interop hinterop
    obtain ⟨parts, aliases, hfragments, -⟩ := hk.layers
    obtain rfl : e = k := by simpa [hfragments] using he
    exact hk

/-- A module that has a fragment beside parts of packages is one of native bindings. -/
theorem Gives.of_synthetic (h : l.Gives c) {f : Fragment} (hf : f ∈ c.provider.fragments)
    (hstored : f.stored? = none) : ∃ e, l.Exports c e := by
  cases hinterop : l.manifest.isInterop with
  | false =>
    obtain ⟨parts, hparts⟩ := h.stored hinterop
    rw [hparts] at hf
    obtain ⟨g, -, rfl⟩ := List.mem_map.1 hf
    cases hstored
  | true => exact h.interop hinterop

end Library

/-! ## In sessions -/

namespace Store

variable {s t : Store} {m : Module} {c : Services}

/-- A module keeps its services. -/
theorem Step.services? (h : s.Step t) (hs : s.Sound) (hm : m.services? s = some c) :
    m.services? t = some c := by
  cases h with
  | changed h => exact (h.grows.services? m).trans hm
  | numbered h => rwa [Module.services?, h.counts.modules]
  | loaded h => rwa [h.services? (hs.modules_lt _ c hm)]
  | shared _ _ hnone => exact get?_set_of_none hnone hm
  | ended => exact hm

theorem Steps.services? (h : s.Steps t) (hs : s.Sound) (hm : m.services? s = some c) :
    m.services? t = some c := by
  induction h with
  | refl => exact hm
  | tail hsteps hstep ih => exact hstep.services? (Steps.sound hsteps hs) ih

end Store

namespace Module

variable {s t : Store} {m : Module} {l : Library}

theorem load_presents (hs : s.Sound) {options : LoadOptions}
    (h : (load l options).runOn s = (.ok m, t)) : m.Presents t l := by
  rcases load_cases hs l options with ⟨e, u, -, hrun, -⟩ | ⟨k, c, u, hc, hrun, hloads⟩
  · cases (Prod.mk.inj (hrun.symm.trans h)).1
  · obtain ⟨hm, rfl⟩ := Prod.mk.inj (hrun.symm.trans h)
    obtain rfl := Except.ok.inj hm
    exact ⟨c, hloads.services?_self, options, hc⟩

end Module

namespace Session

variable {S T : Session} {c : Services}

/-- Services that become known are those of a library that is loaded. -/
theorem Step.gives (h : Step S T) (hS : S.Sound) (hc : T.store.Knows c) :
    S.store.Knows c ∨ ∃ l : Library, l.Gives c := by
  cases h with
  | asked hq => exact .inl ((hq.keeps hS.store).grows.knows_iff.1 hc)
  | counters name =>
    unfold countersNamed at hc
    split at hc
    · exact .inl hc
    · exact .inl hc
  | loaded library options =>
    rcases Module.load_cases hS.store library options with
      ⟨e, t, -, hrun, ht⟩ | ⟨m, d, t, hd, hrun, ht⟩
    · rw [load_of_error hrun] at hc
      exact .inl (ht.counts.reads.knows_iff.1 hc)
    · rw [load_of_ok hrun] at hc
      rcases ht.knows_cases hc with rfl | hc
      · exact .inr ⟨library, options, hd⟩
      · exact .inl hc
  | made name library => exact .inl hc
  | @equipped m source hm hsource =>
    unfold equip query at hc
    cases hd : source.services? S.store with
    | none =>
      rw [runOn_bind, Module.runOn_services_none hd] at hc
      exact .inl hc
    | some d =>
      rw [runOn_bind_ok (Module.runOn_services hd), Module.attach, runOn_get_bind] at hc
      cases hi : m.isInitialized S.store with
      | true =>
        rw [hi] at hc
        exact .inl hc
      | false =>
        rw [hi] at hc
        exact .inl (Store.knows_of_shared (Module.knows_of_services? hd) hc)
  | added => exact .inl hc
  | dropped slot =>
    unfold drop at hc
    cases hm : S.module? slot with
    | none =>
      rw [hm] at hc
      exact .inl hc
    | some m =>
      rw [hm] at hc
      exact .inl hc

/-- A module that is loaded is in use, and presents its library. -/
theorem presents_load (hS : S.Sound) {l : Library} {options : LoadOptions} {m : Module} {t : Store}
    (h : (Module.load l options).runOn S.store = (.ok m, t)) :
    m ∈ (S.load l options).modulesInUse ∧ m.Presents (S.load l options).store l := by
  rw [load_of_ok h]
  exact ⟨mem_hold.2 (.inr rfl), Module.load_presents hS.store h⟩

/-- **All services come from libraries.** -/
theorem Reachable.gives (h : S.Reachable) : ∀ c, S.store.Knows c → ∃ l : Library, l.Gives c := by
  induction h with
  | refl => exact fun c ⟨_, hc⟩ => by cases hc
  | tail hsteps hstep ih =>
    intro c hc
    exact (hstep.gives (Reachable.sound hsteps) hc).elim (ih c) id

/-- A module that is in use later has the services that it has now, and they serve it. -/
theorem Reachable.serves_later (h : S.Reachable) (hT : S.Steps T) {m : Module}
    (hm : m.services? S.store = some c) (hlater : m ∈ T.modulesInUse) :
    m.services? T.store = some c ∧ T.store.Serves c :=
  have hm' := (hT.store h.sound).services? h.sound.store hm
  ⟨hm', Module.knows_of_services? hm', (h.steps hT).sound.live m hlater c hm'⟩

end Session

end SymbolAtlas
