import SymbolAtlas.Proofs.Symbols.Alike
import SymbolAtlas.Proofs.Symbols.Failures
import SymbolAtlas.Proofs.Symbols.Provenance

/-!
# Loading is all or nothing

A library that is refused leaves nothing behind but identities that were given, and a graph that it was
to be loaded into resolves as if it had never been tried. A library that is loaded makes a module that
is whole: every part of it reads with the module's services, from then on, and whatever the module is
asked, it never tells that something of it was not set up.

* `Library.Refuses`: why a library is not loaded;
* `Module.Whole`: what is so of a module that is loaded;
* `Session.loadIntoGraph`: loading into the graph of a session;
* `Session.Reachable.allOrNothing`: all of this, in any session.
-/

namespace SymbolAtlas

open Query

/-- The error tells that a module or a part of it was not set up, or was set up twice. -/
def LoadError.OfSetUp : LoadError → Prop
  | moduleNotInitialized _ => True
  | moduleAlreadyInitialized _ => True
  | componentsMissing _ => True
  | componentsAlreadySet _ => True
  | _ => False

theorem LoadError.not_ofSetUp {e : LoadError} {library : String} (h : e.library = some library) :
    ¬ e.OfSetUp := by
  cases e <;> first | exact id | cases h

/-! ## Refused libraries -/

/-- Why a library is not loaded: its header cannot be read, or is no header, or it binds native
declarations and does not state their package. -/
inductive Library.Refuses (l : Library) : LoadError → Prop
  | unread {fault : Files.Fault} (hheader : l.header = .error fault) :
      l.Refuses (.libraryRead l.name "module header" fault)
  | corrupt {bytes : Bytes} {fault : Header.Fault} (hheader : l.header = .ok bytes)
      (hdecode : Header.decode bytes = .error fault) : l.Refuses (.corruptHeader l.name fault.message)
  | inconsistent {bytes : Bytes} {header : Header} (hheader : l.header = .ok bytes)
      (hdecode : Header.decode bytes = .ok header) (hinterop : l.manifest.isInterop = true)
      (hpackage : l.manifest.package = none) : l.Refuses (.inconsistentManifest l.name)

namespace Library

variable {l : Library} {e : LoadError} {options : LoadOptions}

theorem syntheticOf_eq_error {stored : List StoredFragment} : l.syntheticOf stored = .error e ↔
    l.manifest.isInterop = true ∧ l.manifest.package = none ∧ e = .inconsistentManifest l.name := by
  unfold syntheticOf
  cases l.manifest.isInterop with
  | false => simp
  | true =>
    cases l.manifest.package with
    | none => simp [eq_comm]
    | some package => simp

theorem servicesFrom_eq_error {header : Header} : l.servicesFrom options header = .error e ↔
    l.manifest.isInterop = true ∧ l.manifest.package = none ∧ e = .inconsistentManifest l.name := by
  rw [servicesFrom, except_bind_eq_error, syntheticOf_eq_error]
  apply or_iff_left
  rintro ⟨synthetic, -, h⟩
  cases h

theorem servicesOf_eq_error : l.servicesOf options = .error e ↔ l.Refuses e := by
  rw [servicesOf, except_bind_eq_error, except_mapError_eq_error]
  constructor
  · rintro (⟨fault, hheader, rfl⟩ | ⟨bytes, hheader, h⟩)
    · exact .unread hheader
    · have hheader := except_mapError_eq_ok.1 hheader
      rcases except_bind_eq_error.1 h with h | ⟨header, hparse, h⟩
      · obtain ⟨fault, hdecode, rfl⟩ := except_mapError_eq_error.1 h
        exact .corrupt hheader hdecode
      · obtain ⟨hinterop, hpackage, rfl⟩ := servicesFrom_eq_error.1 h
        exact .inconsistent hheader (except_mapError_eq_ok.1 hparse) hinterop hpackage
  · intro h
    cases h with
    | unread hheader => exact .inl ⟨_, hheader, rfl⟩
    | @corrupt bytes fault hheader hdecode =>
      have hparse : Header.parse l.name bytes = .error (.corruptHeader l.name fault.message) :=
        except_mapError_eq_error.2 ⟨fault, hdecode, rfl⟩
      exact .inr ⟨bytes, except_mapError_eq_ok.2 hheader, except_bind_eq_error.2 (.inl hparse)⟩
    | @inconsistent bytes header hheader hdecode hinterop hpackage =>
      have hparse : Header.parse l.name bytes = .ok header := except_mapError_eq_ok.2 hdecode
      exact .inr ⟨bytes, except_mapError_eq_ok.2 hheader, except_bind_eq_error.2
        (.inr ⟨header, hparse, servicesFrom_eq_error.2 ⟨hinterop, hpackage, rfl⟩⟩)⟩

end Library

/-- Modules keep their services as identities are given. -/
theorem Store.Numbers.services? {s t : Store} (h : s.Numbers t) (m : Module) :
    m.services? t = m.services? s :=
  h.counts.reads.services? m

namespace Module

variable {s t : Store} {m : Module} {l : Library} {options : LoadOptions}

theorem install_returns {k : Module} {counters : Identity} {stored : List StoredFragment}
    {synthetic : List Fragment}
    (h : (k.install options counters stored synthetic).runOn s = (.ok m, t)) : m = k := by
  rw [install, runOn_fresh_bind, runOn_fresh_bind] at h
  obtain ⟨_, _, -, h⟩ := runOn_bind_eq_ok h
  obtain ⟨_, _, -, h⟩ := runOn_bind_eq_ok h
  exact (Except.ok.inj (Prod.mk.inj h).1).symm

/-- A module is of the library that is loaded, and named by its header. -/
theorem load_named (h : (load l options).runOn s = (.ok m, t)) :
    ∃ bytes header, l.header = .ok bytes ∧ Header.decode bytes = .ok header ∧
      m.anonymous = ⟨0, .special header.moduleName, l⟩ := by
  rw [load_eq] at h
  obtain ⟨bytes, s₁, hbytes, h⟩ := runOn_bind_eq_ok h
  obtain ⟨header, s₂, hheader, h⟩ := runOn_bind_eq_ok h
  obtain ⟨counters, s₃, -, h⟩ := runOn_bind_eq_ok h
  obtain ⟨k, s₄, hk, h⟩ := runOn_bind_eq_ok h
  obtain ⟨stored, s₅, -, h⟩ := runOn_bind_eq_ok h
  obtain ⟨synthetic, s₆, -, h⟩ := runOn_bind_eq_ok h
  obtain rfl := install_returns h
  obtain rfl : _ = m := Except.ok.inj (Prod.mk.inj hk).1
  exact ⟨bytes, header, except_mapError_eq_ok.1 (Prod.mk.inj hbytes).1,
    except_mapError_eq_ok.1 (Prod.mk.inj hheader).1, rfl⟩

/-- Two modules of one library differ in their identities only. -/
theorem load_anonymous {s' t' : Store} {m' : Module} {options' : LoadOptions}
    (h : (load l options).runOn s = (.ok m, t)) (h' : (load l options').runOn s' = (.ok m', t')) :
    m.anonymous = m'.anonymous := by
  obtain ⟨bytes, header, hbytes, hheader, hm⟩ := load_named h
  obtain ⟨bytes', header', hbytes', hheader', hm'⟩ := load_named h'
  obtain rfl := Except.ok.inj (hbytes.symm.trans hbytes')
  obtain rfl := Except.ok.inj (hheader.symm.trans hheader')
  rw [hm, hm']

/-- Loading fails with what refuses the library, and with nothing else. -/
theorem load_fails_iff (hs : s.Sound) {e : LoadError} :
    (∃ t, (load l options).runOn s = (.error e, t)) ↔ l.Refuses e := by
  have hrefuses : l.servicesOf options = .error e ↔ l.Refuses e := Library.servicesOf_eq_error
  rw [← hrefuses]
  rcases load_cases hs l options with ⟨d, t, hmeans, hrun, -⟩ | ⟨k, c, t, hmeans, hrun, -⟩
  · rw [hmeans, hrun]
    constructor
    · rintro ⟨u, h⟩
      rw [Except.error.inj (Prod.mk.inj h).1]
    · intro h
      exact ⟨t, by rw [Except.error.inj h]⟩
  · rw [hmeans, hrun]
    constructor
    · rintro ⟨u, h⟩
      cases (Prod.mk.inj h).1
    · nofun

theorem numbers_of_load_error (hs : s.Sound) {e : LoadError}
    (h : (load l options).runOn s = (.error e, t)) : s.Numbers t := by
  rcases load_cases hs l options with ⟨d, u, -, hrun, hu⟩ | ⟨m, c, u, -, hrun, -⟩
  · obtain ⟨-, rfl⟩ := Prod.mk.inj (hrun.symm.trans h)
    exact hu
  · cases (Prod.mk.inj (hrun.symm.trans h)).1

/-- The module can answer, and has the services `c`: each of its parts reads with them, and whatever
it is asked, again and again, fails only where a part of its own library cannot be read. -/
structure Whole (m : Module) (c : Services) (s : Store) : Prop where
  services : m.services? s = some c
  components : ∀ f ∈ c.provider.storedFragments, f.services.runOn s = (.ok c, s)
  failures : ∀ t, m.Asked c s t → ∀ (α : Type) (q : Query α), m.Asks c q → ∀ e u,
    q.runOn t = (.error e, u) →
      c.Unreadable e ∧ e.library = some m.library.name ∧ ¬ e.OfSetUp

theorem whole_of_services {c : Services} (hs : s.Sound) (hm : m.services? s = some c)
    (hgives : m.library.Gives c) : m.Whole c s where
  services := hm
  components := fun f hf => StoredFragment.runOn_services hs ⟨knows_of_services? hm, hf⟩
  failures := by
    intro t ht α q hq e u h
    have hgrows := ht.grows hs hm
    have hblames := hq.blames (hgrows.sound hs) ((hgrows.services? m).trans hm)
    obtain ⟨f, hf, hreading⟩ := hblames.error e u h
    have hlibrary := StoredFragment.library_of_reading hreading
    rw [hgives.library hf] at hlibrary
    exact ⟨⟨f, hf, hreading⟩, hlibrary, LoadError.not_ofSetUp hlibrary⟩

end Module

/-! ## Graphs -/

namespace Session

variable {S S' : Session} {l : Library} {options : LoadOptions}

/-- The session after loading a library into its graph. A module that is loaded is held in the next
slot as well. -/
def loadIntoGraph (S : Session) (l : Library) (options : LoadOptions) : Session :=
  match S.query (S.graph.load l options) with
  | (.ok (m, graph), S) => { S with graph }.hold m
  | (.error _, S) => S

/-- The session after loading libraries into its graph, one after the other. -/
def loadAllIntoGraph (S : Session) (libraries : List (Library × LoadOptions)) : Session :=
  libraries.foldl (fun S (l, options) => S.loadIntoGraph l options) S

theorem runOn_graphLoad (g : ModuleGraph) (l : Library) (options : LoadOptions) (s : Store) :
    (g.load l options).runOn s =
      (((Module.load l options).runOn s).1.map fun m => (m, g.add m),
        ((Module.load l options).runOn s).2) := by
  rw [ModuleGraph.load, runOn_bind]
  rcases (Module.load l options).runOn s with ⟨e | m, t⟩ <;> rfl

/-- A library that is loaded into the graph is loaded, and its module added to the graph. -/
theorem loadIntoGraph_of_ok {m : Module} {t : Store}
    (h : (Module.load l options).runOn S.store = (.ok m, t)) :
    S.loadIntoGraph l options = (S.load l options).add m := by
  rw [load_of_ok h]
  unfold loadIntoGraph query
  rw [runOn_graphLoad, h]
  rfl

theorem loadIntoGraph_of_error {e : LoadError} {t : Store}
    (h : (Module.load l options).runOn S.store = (.error e, t)) :
    S.loadIntoGraph l options = S.load l options := by
  rw [load_of_error h]
  unfold loadIntoGraph query
  rw [runOn_graphLoad, h]
  rfl

theorem load_steps_loadIntoGraph (S : Session) (l : Library) (options : LoadOptions) :
    (S.load l options).Steps (S.loadIntoGraph l options) := by
  rcases hrun : (Module.load l options).runOn S.store with ⟨e | m, t⟩
  · rw [loadIntoGraph_of_error hrun]
    exact .refl
  · have hm : m ∈ (S.load l options).modulesInUse := by
      rw [load_of_ok hrun]
      exact mem_hold.2 (.inr rfl)
    rw [loadIntoGraph_of_ok hrun]
    exact .single (.added hm)

theorem loadIntoGraph_steps (S : Session) (l : Library) (options : LoadOptions) :
    S.Steps (S.loadIntoGraph l options) :=
  .head (.loaded l options) (S.load_steps_loadIntoGraph l options)

theorem loadAllIntoGraph_steps (S : Session) (libraries : List (Library × LoadOptions)) :
    S.Steps (S.loadAllIntoGraph libraries) := by
  induction libraries generalizing S with
  | nil => exact .refl
  | cons first rest ih => exact (S.loadIntoGraph_steps first.1 first.2).trans (ih _)

/-- The graphs of the sessions have modules that are alike, in the same order. -/
def Alike (S S' : Session) : Prop :=
  List.Forall₂ (Module.Alike S.store S'.store) S.graph.modules S'.graph.modules

theorem Alike.refl (S : Session) : S.Alike S :=
  List.forall₂_same.2 fun _ _ => ⟨rfl, rfl⟩

theorem mem_modulesInUse_of_graph {m : Module} (h : m ∈ S.graph.modules) : m ∈ S.modulesInUse :=
  List.mem_append_right _ h

theorem Alike.store (h : S.Alike S') {t t' : Store}
    (ht : ∀ m ∈ S.graph.modules, m.services? t = m.services? S.store)
    (ht' : ∀ m ∈ S'.graph.modules, m.services? t' = m.services? S'.store) :
    List.Forall₂ (Module.Alike t t') S.graph.modules S'.graph.modules := by
  obtain ⟨hlength, hzip⟩ := List.forall₂_iff_zip.1 h
  refine List.forall₂_iff_zip.2 ⟨hlength, fun {m m'} hmem => ?_⟩
  obtain ⟨hm, hm'⟩ := List.of_mem_zip hmem
  exact ⟨(hzip hmem).anonymous, by rw [ht m hm, ht' m' hm']; exact (hzip hmem).services⟩

/-- Graphs that are alike stay alike as a library is loaded into both, or is refused by both. -/
theorem Alike.loadIntoGraph (h : S.Alike S') (hS : S.Sound) (hS' : S'.Sound) (l : Library)
    (options : LoadOptions) : (S.loadIntoGraph l options).Alike (S'.loadIntoGraph l options) := by
  rcases Module.load_cases hS.store l options with
    ⟨e, t, hmeans, hrun, ht⟩ | ⟨m, c, t, hmeans, hrun, ht⟩ <;>
  rcases Module.load_cases hS'.store l options with
    ⟨e', t', hmeans', hrun', ht'⟩ | ⟨m', c', t', hmeans', hrun', ht'⟩
  · rw [loadIntoGraph_of_error hrun, loadIntoGraph_of_error hrun', load_of_error hrun,
      load_of_error hrun']
    exact h.store (fun k _ => ht.services? k) (fun k _ => ht'.services? k)
  · cases hmeans.symm.trans hmeans'
  · cases hmeans.symm.trans hmeans'
  · rw [loadIntoGraph_of_ok hrun, loadIntoGraph_of_ok hrun', load_of_ok hrun, load_of_ok hrun']
    have hthere := h.store
      (fun k hk => ht.services? (hS.modules_lt k (mem_modulesInUse_of_graph hk)))
      (fun k hk => ht'.services? (hS'.modules_lt k (mem_modulesInUse_of_graph hk)))
    have hnew : m.Alike t t' m' := by
      refine ⟨Module.load_anonymous hrun hrun', ?_⟩
      rw [ht.services?_self, ht'.services?_self]
      exact congrArg some (Except.ok.inj (hmeans.symm.trans hmeans'))
    exact List.rel_append hthere (.cons hnew .nil)

theorem Alike.loadAllIntoGraph (h : S.Alike S') (hS : S.Sound) (hS' : S'.Sound)
    (libraries : List (Library × LoadOptions)) :
    (S.loadAllIntoGraph libraries).Alike (S'.loadAllIntoGraph libraries) := by
  induction libraries generalizing S S' with
  | nil => exact h
  | cons first rest ih =>
    obtain ⟨l, options⟩ := first
    exact ih (h.loadIntoGraph hS hS' l options) ((S.loadIntoGraph_steps l options).sound hS)
      ((S'.loadIntoGraph_steps l options).sound hS')

/-- Sessions with graphs that are alike resolve alike, whatever is asked in either before. -/
theorem Alike.resolve (h : S.Alike S') (hS : S.Sound) (hS' : S'.Sound) {u u' : Store}
    (hu : S.store.Asked u) (hu' : S'.store.Asked u') (id : ClassId) :
    ((S.graph.resolve id).runOn u).1.map Resolution.withoutIdentities =
      ((S'.graph.resolve id).runOn u').1.map Resolution.withoutIdentities :=
  ModuleGraph.resolve_alike h hS.store hS'.store
    (fun m hm => hS.live m (mem_modulesInUse_of_graph hm))
    (fun m hm => hS'.live m (mem_modulesInUse_of_graph hm)) (hu.changes hS.store).grows
    (hu'.changes hS'.store).grows id

/-- What is so of loading a library in a session. -/
structure AllOrNothing (S : Session) (l : Library) (options : LoadOptions) : Prop where
  /-- Loading fails for what refuses the library, whatever the session and the options, and for nothing
  else. -/
  refused : ∀ e, (∃ t, (Module.load l options).runOn S.store = (.error e, t)) ↔ l.Refuses e
  /-- Nothing of it is left: identities were given, and that is all. -/
  nothing : ∀ e t, (Module.load l options).runOn S.store = (.error e, t) → S.store.Numbers t
  /-- A library that is loaded makes a module, which is whole from then on. -/
  whole : ∀ m t, (Module.load l options).runOn S.store = (.ok m, t) → m.library = l ∧
    ∃ c, ∀ T, (S.load l options).Steps T → m.Whole c T.store
  /-- A graph loads what can be loaded. -/
  graph : ((S.graph.load l options).runOn S.store).1 =
    ((Module.load l options).runOn S.store).1.map fun m => (m, S.graph.add m)
  /-- A library that is refused leaves the graph as it was. -/
  unchanged : ∀ e, ((S.graph.load l options).runOn S.store).1 = .error e →
    (S.loadIntoGraph l options).graph = S.graph
  /-- It makes no difference to any later resolution, whatever is loaded into the graph and asked
  before that. -/
  resolves : ∀ e, ((S.graph.load l options).runOn S.store).1 = .error e →
    ∀ libraries u u', (S.loadAllIntoGraph libraries).store.Asked u →
      ((S.loadIntoGraph l options).loadAllIntoGraph libraries).store.Asked u' → ∀ id,
      (((S.loadAllIntoGraph libraries).graph.resolve id).runOn u).1.map Resolution.withoutIdentities =
        ((((S.loadIntoGraph l options).loadAllIntoGraph libraries).graph.resolve id).runOn u').1.map
          Resolution.withoutIdentities

theorem graph_fails {e : LoadError} (h : ((S.graph.load l options).runOn S.store).1 = .error e) :
    ∃ t, (Module.load l options).runOn S.store = (.error e, t) := by
  rw [runOn_graphLoad] at h
  exact ⟨_, Prod.ext (except_map_eq_error.1 h) rfl⟩

/-- **Loading is all or nothing.** -/
theorem Reachable.allOrNothing (h : S.Reachable) (l : Library) (options : LoadOptions) :
    S.AllOrNothing l options := by
  have hS := h.sound
  refine
    { refused := fun e => Module.load_fails_iff hS.store
      nothing := fun e t hrun => Module.numbers_of_load_error hS.store hrun
      whole := ?_
      graph := by rw [runOn_graphLoad]
      unchanged := ?_
      resolves := ?_ }
  · intro m t hrun
    obtain ⟨bytes, header, -, -, hnamed⟩ := Module.load_named hrun
    have hlibrary : m.library = l := (Module.mk.inj hnamed).2.2
    obtain ⟨-, c, hc, hgives⟩ := presents_load hS hrun
    refine ⟨hlibrary, c, fun T hT => ?_⟩
    have hload : (S.load l options).Sound := hS.load l options
    have hm := (hT.store hload).services? hload.store hc
    exact Module.whole_of_services (hT.sound hload).store hm (hlibrary.symm ▸ hgives)
  · intro e hfails
    obtain ⟨t, hrun⟩ := graph_fails hfails
    rw [loadIntoGraph_of_error hrun, load_of_error hrun]
  · intro e hfails libraries u u' hu hu' id
    obtain ⟨t, hrun⟩ := graph_fails hfails
    have hT : (S.loadIntoGraph l options).Sound := (S.loadIntoGraph_steps l options).sound hS
    have halike : S.Alike (S.loadIntoGraph l options) := by
      rw [loadIntoGraph_of_error hrun, load_of_error hrun]
      exact (Alike.refl S).store (fun _ _ => rfl) fun k _ =>
        (Module.numbers_of_load_error hS.store hrun).services? k
    exact (halike.loadAllIntoGraph hS hT libraries).resolve
      ((S.loadAllIntoGraph_steps libraries).sound hS)
      ((loadAllIntoGraph_steps _ libraries).sound hT) hu hu' id

/-- A library of native bindings that does not state their package. -/
def unnamed : Library :=
  MemoryLibrary.toLibrary
    { name := "unnamed"
      manifest := Manifest.empty.withInterop true
      header := Header.magic ++ (Header.mk "unnamed" []).body
      parts := [] }

/-- It is refused by a graph with a module. The module stays, whole as it was, and answers as before. -/
theorem allOrNothing_unnamed :
    let id := ClassId.parse "video/Window"
    let S := loadIntoGraph {} (ModuleGraph.bindings "video" ["Window"] []) {}
    let T := S.loadIntoGraph unnamed {}
    S.AllOrNothing unnamed {} ∧ unnamed.Refuses (.inconsistentManifest "unnamed") ∧
      (∃ m c, T.graph.modules = [m] ∧ m.Whole c T.store) ∧
      ∃ r r', ((S.graph.resolve id).runOn S.store).1 = .ok r ∧
        ((T.graph.resolve id).runOn T.store).1 = .ok r' ∧ r.label = "declared" ∧
        r'.withoutIdentities = r.withoutIdentities := by
  intro id S T
  have hreachable : S.Reachable := loadIntoGraph_steps {} _ {}
  have hloads := hreachable.allOrNothing unnamed {}
  have hfails : ((S.graph.load unnamed {}).runOn S.store).1.map (fun _ => ()) =
      .error (.inconsistentManifest "unnamed") := by decide +kernel
  have hfails := except_map_eq_error.1 hfails
  refine ⟨hloads, (hloads.refused _).1 (graph_fails hfails), ?_, ?_⟩
  · have hvideo : ((Module.load (ModuleGraph.bindings "video" ["Window"] []) {}).runOn
        ({} : Session).store).1.isOk = true := by decide +kernel
    rcases hrun : (Module.load (ModuleGraph.bindings "video" ["Window"] []) {}).runOn
      ({} : Session).store with ⟨e | m, t⟩
    · rw [hrun] at hvideo
      cases hvideo
    · have hS : S = (load {} _ {}).add m := loadIntoGraph_of_ok hrun
      have hgraph : S.graph.modules = [m] := by
        rw [hS, load_of_ok hrun]
        rfl
      have hstart : Reachable {} := .refl
      obtain ⟨-, c, hwhole⟩ := (hstart.allOrNothing _ _).whole m t hrun
      have hsteps := (load_steps_loadIntoGraph {} _ _).trans (S.loadIntoGraph_steps unnamed {})
      exact ⟨m, c, by rw [hloads.unchanged _ hfails, hgraph], hwhole T hsteps⟩
  · have hlabel : ((S.graph.resolve id).runOn S.store).1.map Resolution.label = .ok "declared" := by
      decide +kernel
    obtain ⟨r, hr, hlabel⟩ := except_map_eq_ok.1 hlabel
    have hsame := hloads.resolves _ hfails [] S.store T.store .refl .refl id
    change ((S.graph.resolve id).runOn S.store).1.map _ = ((T.graph.resolve id).runOn T.store).1.map _
      at hsame
    rw [hr] at hsame
    obtain ⟨r', hr', hwithout⟩ := except_map_eq_ok.1 hsame.symm
    exact ⟨r, r', hr, hr', hlabel, hwithout⟩

end Session

end SymbolAtlas
