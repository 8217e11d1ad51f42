import SymbolAtlas.Proofs.Symbols.Provenance
import SymbolAtlas.Proofs.Symbols.Reaching
import SymbolAtlas.Proofs.Symbols.Reading

/-!
# The footprint of a look-up

Loading a module reads none of its parts, and finding a class reads those that it has to look into:
the parts that the class is searched in, under its own package and, in a reserved namespace, under the
package that the module shows there; and the parts that its annotations are searched in, when its
descriptor is not made yet.

* `Services.Footprint`: the parts that a look-up has to look into;
* `Services.findClass_touches`: finding a class looks into its footprint;
* `Session.Reachable.lazy`: whatever happened before, nothing else is populated.
-/

namespace SymbolAtlas

open Query

/-! ## Modules -/

theorem Provider.packageFragments_of_layers {p : Provider} {parts : List StoredFragment}
    {aliases : List AliasFragment} {exported : List ExportedFragment}
    (h : p.fragments = parts.map .stored ++ (aliases.map .aliasing ++ exported.map .exported))
    (package : QualName) : p.packageFragments package =
      (p.storedFragments.filter (·.package == package)).map .stored ++
        ((aliases.filter (·.space.package == package)).map .aliasing ++
          (exported.filter (·.package == package)).map .exported) := by
  have hstored : p.storedFragments = parts := by
    refine storedFragments_layers h fun f hf => ?_
    rcases List.mem_append.1 hf with hf | hf
    · obtain ⟨a, -, rfl⟩ := List.mem_map.1 hf
      rfl
    · obtain ⟨e, -, rfl⟩ := List.mem_map.1 hf
      rfl
  rw [hstored, packageFragments, h, List.filter_append, List.filter_append, List.filter_map,
    List.filter_map, List.filter_map]
  rfl

namespace Library

variable {l : Library} {c : Services}

/-- A module of native bindings shows its package under a reserved name. -/
def Shows (l : Library) (space package : QualName) : Prop :=
  l.manifest.isInterop = true ∧ l.manifest.package = some package ∧
    ∃ s : ForwardNamespace, s.package = space

theorem Exports.shows_iff {e : ExportedFragment} (h : l.Exports c e)
    (hinterop : l.manifest.isInterop = true) {aliases : List AliasFragment}
    (hspaces : aliases.map (·.space) = ForwardNamespace.all) (space package : QualName) :
    l.Shows space package ↔
      aliases.filter (·.space.package == space) ≠ [] ∧ package = e.package := by
  have hspace : (∃ s : ForwardNamespace, s.package = space) ↔
      aliases.filter (·.space.package == space) ≠ [] := by
    rw [ne_eq, List.filter_eq_nil_iff]
    push Not
    constructor
    · rintro ⟨s, rfl⟩
      obtain ⟨a, ha, rfl⟩ := List.mem_map.1 (hspaces ▸ s.mem_all)
      exact ⟨a, ha, beq_self_eq_true _⟩
    · rintro ⟨a, -, ha⟩
      exact ⟨a.space, beq_iff_eq.1 ha⟩
  rw [Shows, h.package, hspace]
  simp only [hinterop, Option.some.injEq, true_and, eq_comm, and_comm]

/-- The fragments of a package: parts in the order of the header, aliases, exported declarations. -/
theorem Gives.packageFragments (h : l.Gives c) (hassembled : c.Assembled) (space : QualName) :
    ∃ (shown : List AliasFragment) (offered : List ExportedFragment) (package : QualName),
      c.provider.packageFragments space =
        (c.parts space).map .stored ++ (shown.map .aliasing ++ offered.map .exported) ∧
      (∀ a ∈ shown, a.targets = c.parts package) ∧
      ∀ p, l.Shows space p ↔ shown ≠ [] ∧ p = package := by
  cases hinterop : l.manifest.isInterop with
  | false =>
    obtain ⟨parts, hparts⟩ := h.stored hinterop
    have hlayers : c.provider.fragments = parts.map .stored ++ (List.map .aliasing [] ++
      List.map .exported []) := by simpa using hparts
    refine ⟨[], [], space, Provider.packageFragments_of_layers hlayers space, nofun, fun p => ?_⟩
    simp [Shows, hinterop]
  | true =>
    obtain ⟨e, hexports⟩ := h.interop hinterop
    obtain ⟨parts, aliases, hfragments, hspaces⟩ := hexports.layers
    have hlayers : c.provider.fragments = parts.map .stored ++ (aliases.map .aliasing ++
      List.map .exported [e]) := hfragments
    refine ⟨_, _, e.package, Provider.packageFragments_of_layers hlayers space, fun a ha => ?_,
      fun p => hexports.shows_iff hinterop hspaces space p⟩
    apply (hexports.binds hassembled).targets
    have ha := List.mem_map_of_mem (f := Fragment.aliasing) (List.mem_filter.1 ha).1
    rw [hlayers]
    exact List.mem_append_right _ (List.mem_append_left _ ha)

end Library

namespace Services

variable {s : Store} {c : Services} {l : Library} {id : ClassId} {f : StoredFragment}

/-- The parts that finding a class has to look into: those that it reaches in the package of the class
and, when no part of a reserved namespace declares the class, those that it reaches in the package that
the module shows there. -/
inductive Footprint (l : Library) (c : Services) (s : Store) (id : ClassId) : StoredFragment → Prop
  | own {f : StoredFragment} (hf : c.Reached s id f) : Footprint l c s id f
  | shown {f : StoredFragment} {package : QualName} (hshows : l.Shows id.package package)
      (hmisses : ∀ g ∈ c.parts id.package, g.hasRecord c id.relative = .ok false)
      (hf : c.Reached s ⟨package, id.relative⟩ f) : Footprint l c s id f

theorem Footprint.mem (h : Footprint l c s id f) : f ∈ c.provider.storedFragments := by
  cases h with
  | own hf => exact hf.mem
  | shown _ _ hf => exact hf.mem

/-- Nothing is shown where a part declares the class. -/
theorem footprint_of_declared {g : StoredFragment} (hg : g ∈ c.parts id.package)
    (hdeclares : g.hasRecord c id.relative = .ok true) :
    Footprint l c s id f ↔ c.Reached s id f := by
  constructor
  · rintro (hf | ⟨-, hmisses, -⟩)
    · exact hf
    · cases hdeclares.symm.trans (hmisses g hg)
  · exact .own

theorem footprint_of_missed {shown : List AliasFragment} {package : QualName}
    (hmisses : ∀ g ∈ c.parts id.package, g.hasRecord c id.relative = .ok false)
    (hshows : ∀ p, l.Shows id.package p ↔ shown ≠ [] ∧ p = package) :
    Footprint l c s id f ↔ c.Reached s id f ∨ shown ≠ [] ∧ c.Reached s ⟨package, id.relative⟩ f := by
  constructor
  · rintro (hf | ⟨hshow, -, hf⟩)
    · exact .inl hf
    · obtain ⟨hne, rfl⟩ := (hshows _).1 hshow
      exact .inr ⟨hne, hf⟩
  · rintro (hf | ⟨hne, hf⟩)
    · exact .own hf
    · exact .shown ((hshows _).2 ⟨hne, rfl⟩) hmisses hf

/-- Finding a class looks into its footprint. -/
theorem findClass_touches (hs : s.Sound) (hc : s.Serves c) (hassembled : c.Assembled) (hl : l.Gives c)
    (id : ClassId) : Touches (Footprint l c s id) (c.findClass id) s := by
  obtain ⟨shown, offered, package, hitems, htargets, hshows⟩ := hl.packageFragments hassembled id.package
  have hstored : c.parts id.package ⊆ c.provider.storedFragments := List.filter_subset_self _
  refine .of_runOn (runOn_findClass hc id) ?_
  rw [hitems, firstAnswer_append, firstAnswer_map]
  have hparts := parts_touch hs hc (List.Subset.refl (c.parts id.package))
  refine hparts.bind (fun f hf => .own (looked_parts.1 hf)) fun answer t hanswer => ?_
  cases answer with
  | some d =>
    obtain ⟨g, hg, hdeclares⟩ := parts_some hs hc hstored hanswer
    refine ⟨_, .pure' _ t, fun f => ?_⟩
    rw [footprint_of_declared hg hdeclares, looked_parts, or_false]
  | none =>
    obtain ⟨hmisses, ht⟩ := parts_none hs hc hstored hanswer
    have haliases : Touches
        (fun f => shown ≠ [] ∧ c.Looked t ⟨package, id.relative⟩ (c.parts package) f)
        (firstAnswer (fun a : AliasFragment => a.contributed id.relative) shown) t :=
      AliasFragment.aliases_touch (ht.sound hs) (ht.toGrows.serves hc) htargets
    dsimp only
    rw [firstAnswer_append, firstAnswer_map, firstAnswer_map]
    refine ⟨_, haliases.thenNothing fun answer u _ => ?_, fun f => ?_⟩
    · cases answer with
      | some d => exact .pure' _ u
      | none => exact ExportedFragment.exported_touch id.relative
    · rw [footprint_of_missed hmisses hshows, looked_parts, looked_congr ht]
      exact or_congr_right (and_congr_right' looked_parts.symm)

end Services

/-! ## Sessions -/

/-- The query finds a class with these services, or in a module that has them. -/
def Services.Finds (c : Services) (s : Store) (id : ClassId) (q : Query (Option ClassDescriptor)) : Prop :=
  q = c.findClass id ∨ ∃ m : Module, m.services? s = some c ∧ q = m.findClass id

theorem Services.Finds.runOn_eq {c : Services} {s : Store} {id : ClassId}
    {q : Query (Option ClassDescriptor)} (h : c.Finds s id q) : q.runOn s = (c.findClass id).runOn s := by
  rcases h with rfl | ⟨m, hm, rfl⟩
  · rfl
  · exact Module.runOn_findClass hm id

/-- Services whose provider is no longer in use find nothing. -/
theorem Services.runOn_findClass_of_ended {s : Store} {c : Services}
    (h : s.hasEnded c.provider.identity = true) (id : ClassId) :
    (c.findClass id).runOn s = (.ok none, s) := by
  have hnone : ((s.current c).provider.packageFragments id.package) = [] := by
    rw [Store.current, h]
    rfl
  rw [findClass, runOn_bind_ok (runOn_liveFragments s c id.package), hnone]
  rfl

namespace Session

variable {S : Session} {m : Module} {c d : Services} {l : Library} {id : ClassId}
  {q : Query (Option ClassDescriptor)} {t : Store}

/-- Nothing is read before it is looked into, and nothing else is read then. -/
structure Lazy (S : Session) : Prop where
  /-- Loading populates no part, whether it succeeds or not. -/
  loading : ∀ l options, (S.load l options).store.payloads = S.store.payloads
  /-- A module that was just loaded has no part that is populated. -/
  fresh : ∀ l options m t, (Module.load l options).runOn S.store = (.ok m, t) →
    ∃ c, m.services? t = some c ∧ ∀ f ∈ c.provider.storedFragments, t.isPopulated f = false
  /-- The parts of a package are searched in the order in which the header of the library has them. -/
  ordered : ∀ c, S.store.Knows c →
    ∃ (l : Library) (stored : List StoredFragment), l.Gives c ∧ l.Lists stored ∧ ∀ package,
      (c.parts package).map StoredFragment.anonymous = stored.filter (·.package == package)
  /-- Whatever finding a class answers, it populates no part of any module outside its footprint. -/
  only : ∀ c, S.store.Knows c → ∀ id q, c.Finds S.store id q → ∀ r t, q.runOn S.store = (r, t) →
    ∀ d f, S.store.Holds d f → t.isPopulated f = true →
      S.store.isPopulated f = true ∨ ∃ l, l.Gives c ∧ c.Footprint l S.store id f
  /-- When nothing fails, all of the footprint is populated afterwards. -/
  all : ∀ c, S.store.Serves c → ∀ id q, c.Finds S.store id q →
    ∀ answer t, q.runOn S.store = (.ok answer, t) →
      ∀ l, l.Gives c → ∀ f, c.Footprint l S.store id f → t.isPopulated f = true
  /-- A module that has no services populates nothing. -/
  bare : ∀ m : Module, m.services? S.store = none → ∀ id, ((m.findClass id).runOn S.store).2 = S.store
  /-- The services of a module in use are those of a provider in use. -/
  live : ∀ m ∈ S.modulesInUse, ∀ c, m.services? S.store = some c → S.store.Serves c

theorem Reachable.find_touches (h : S.Reachable) (hc : S.store.Serves c) (hl : l.Gives c)
    (hq : c.Finds S.store id q) : Touches (c.Footprint l S.store id) q S.store :=
  .of_runOn hq.runOn_eq <| Services.findClass_touches h.sound.store hc
    (h.store.tidy.assembled c hc.knows) hl id

theorem load_payloads (hS : S.Sound) (l : Library) (options : LoadOptions) :
    (S.load l options).store.payloads = S.store.payloads := by
  rcases Module.load_cases hS.store l options with ⟨e, t, -, hrun, ht⟩ | ⟨m, c, t, -, hrun, ht⟩
  · rw [load_of_error hrun]
    exact ht.counts.payloads
  · rw [load_of_ok hrun]
    exact ht.payloads

theorem load_fresh (hS : S.Sound) {options : LoadOptions}
    (h : (Module.load l options).runOn S.store = (.ok m, t)) :
    ∃ c, m.services? t = some c ∧ ∀ f ∈ c.provider.storedFragments, t.isPopulated f = false := by
  rcases Module.load_cases hS.store l options with ⟨e, u, -, hrun, -⟩ | ⟨k, c, u, -, hrun, hloads⟩
  · cases (Prod.mk.inj (hrun.symm.trans h)).1
  · obtain ⟨hk, rfl⟩ := Prod.mk.inj (hrun.symm.trans h)
    obtain rfl := Except.ok.inj hk
    refine ⟨c, hloads.services?_self, fun f hf => ?_⟩
    -- The identity of the part is newer than those of all payloads.
    rw [Store.isPopulated, hloads.payloads]
    cases hp : S.store.payloads.get? f.identity with
    | none => rfl
    | some p => exact absurd (hS.store.payloads_lt _ p hp) (Nat.not_lt.2 (hloads.stored_new f hf).1)

theorem Reachable.only_footprint (h : S.Reachable) (hc : S.store.Knows c)
    (hq : c.Finds S.store id q) {r : Except LoadError (Option ClassDescriptor)}
    (hrun : q.runOn S.store = (r, t)) {f : StoredFragment} (hf : S.store.Holds d f)
    (hpopulated : t.isPopulated f = true) :
    S.store.isPopulated f = true ∨ ∃ l, l.Gives c ∧ c.Footprint l S.store id f := by
  cases hlive : S.store.hasEnded c.provider.identity with
  | true =>
    rw [hq.runOn_eq, Services.runOn_findClass_of_ended hlive] at hrun
    obtain ⟨-, rfl⟩ := Prod.mk.inj hrun
    exact .inl hpopulated
  | false =>
    obtain ⟨l, hl⟩ := h.gives c hc
    have hpopulates := (h.find_touches ⟨hc, hlive⟩ hl hq).populates
    rw [hrun] at hpopulates
    obtain ⟨p, hp⟩ := Option.isSome_iff_exists.1 hpopulated
    rcases hpopulates.only _ p hp with hp | ⟨g, hg, hi⟩
    · exact .inl (Option.isSome_iff_exists.2 ⟨p, hp⟩)
    · -- Parts with one identity are one part.
      obtain rfl := h.sound.store.fragments c hc d hf.knows g hg.mem f hf.mem hi
      exact .inr ⟨l, hl, hg⟩

/-- **Parts are read when they are looked into.** In every session, loading a module populates no part,
and finding a class populates exactly the parts that it has to look into: those of the class's package
up to the first that declares it; in a reserved namespace where none does, those of the package that the
module shows there, up to the first that declares it; and, only when the class found has no descriptor
yet, for each of its annotations those of the annotation's package up to the first that declares it. -/
theorem Reachable.lazy (h : S.Reachable) : S.Lazy where
  loading := load_payloads h.sound
  fresh := fun _ _ _ _ hload => load_fresh h.sound hload
  ordered := by
    intro c hc
    obtain ⟨l, hl⟩ := h.gives c hc
    exact ⟨l, _, hl, hl.lists, fun package => Module.filter_anonymous _ package⟩
  only := fun _ hc _ _ hq _ _ hrun _ _ hf hpopulated => h.only_footprint hc hq hrun hf hpopulated
  all := fun _ hc _ _ hq answer t hrun _ hl f hf => (h.find_touches hc hl hq).fills answer t hrun f hf
  bare := by
    intro m hm id
    rw [Module.findClass, runOn_bind, Module.runOn_services_none hm]
  live := fun m hm c hc => ⟨Module.knows_of_services? hc, h.sound.live m hm c hc⟩

/-- A library of native bindings with a class in each part, one of them with an annotation. -/
def scattered : Library :=
  let part (package name : String) (annotations : List AnnotationRecord) : Payload :=
    ⟨package, .current, [⟨name, .plain, 0, [], annotations⟩], [], []⟩
  ((MemoryLibrary.ofPayloads? "video" "video" ((Manifest.empty.withPackage "video").withInterop true)
    [part "video" "Surface" [], part "lib" "Until" [], part "video" "Window" [⟨"lib/Since", []⟩],
      part "video" "Cursor" [], part "lib" "Since" [], part "lib" "Other" []] []).getD
    ⟨"video", .empty, [], []⟩).toLibrary

/-- Finding a class through an alias populates the parts up to the one that declares it, then those up
to the one that declares its annotation, and no part after these. -/
theorem lazy_scattered :
    let S := load {} scattered {}
    S.Lazy ∧ S.store.populatedParts.length = 0 ∧ ∃ m ∈ S.modulesInUse,
      ((m.findClass ⟨ForwardNamespace.cStructs.package, ⟨"Window"⟩⟩).runOn S.store).2.populatedParts.map
        (fun f => (f.package, f.part)) =
      [(.ofText "video", 0), (.ofText "video", 1), (.ofText "lib", 0), (.ofText "lib", 1)] := by
  intro S
  have hreachable : S.Reachable := .single (.loaded _ _)
  have hparts : (S.module? 0).map (fun m =>
      ((m.findClass ⟨ForwardNamespace.cStructs.package, ⟨"Window"⟩⟩).runOn S.store).2.populatedParts.map
        (fun f => (f.package, f.part))) =
      some [(.ofText "video", 0), (.ofText "video", 1), (.ofText "lib", 0), (.ofText "lib", 1)] := by
    decide +kernel
  obtain ⟨m, hm, hpopulated⟩ := Option.map_eq_some_iff.1 hparts
  exact ⟨hreachable.lazy, by decide +kernel, m, mem_of_module? hm, hpopulated⟩

end Session

end SymbolAtlas
