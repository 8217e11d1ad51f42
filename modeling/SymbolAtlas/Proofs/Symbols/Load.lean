import Mathlib.Data.List.Nodup
import SymbolAtlas.Proofs.Except
import SymbolAtlas.Proofs.Symbols.Lookup
import SymbolAtlas.Symbols.Module

namespace SymbolAtlas

open Query

/-- The store `t` is `s` after identities were given. -/
def Store.Numbers (s t : Store) : Prop :=
  ∃ n, s.nextIdentity ≤ n ∧ t = { s with nextIdentity := n }

namespace Store.Numbers

variable {s t u : Store}

theorem refl (s : Store) : s.Numbers s :=
  ⟨s.nextIdentity, Nat.le_refl _, rfl⟩

theorem fresh (s : Store) : s.Numbers { s with nextIdentity := s.nextIdentity + 1 } :=
  ⟨_, Nat.le_succ _, rfl⟩

theorem trans (h₁ : s.Numbers t) (h₂ : t.Numbers u) : s.Numbers u := by
  obtain ⟨n, hn, rfl⟩ := h₁
  obtain ⟨k, hk, rfl⟩ := h₂
  exact ⟨k, Nat.le_trans hn hk, rfl⟩

theorem counts (h : s.Numbers t) : s.Counts t := by
  obtain ⟨n, hn, rfl⟩ := h
  exact ⟨rfl, rfl, rfl, hn, rfl, rfl, rfl, rfl⟩

end Store.Numbers

theorem Library.stored?_of_syntheticOf {l : Library} {stored : List StoredFragment}
    {synthetic : List Fragment} (h : l.syntheticOf stored = .ok synthetic) :
    ∀ f ∈ synthetic, f.stored? = none := by
  unfold syntheticOf at h
  split at h
  · obtain rfl := Except.ok.inj h
    exact nofun
  · split at h
    · cases h
    · obtain rfl := Except.ok.inj h
      intro f hf
      rcases List.mem_append.1 hf with hf | hf
      · obtain ⟨space, -, rfl⟩ := List.mem_map.1 hf
        rfl
      · rw [List.mem_singleton.1 hf]
        rfl

theorem Provider.storedFragments_layers {p : Provider} {stored : List StoredFragment}
    {synthetic : List Fragment} (hp : p.fragments = stored.map .stored ++ synthetic)
    (h : ∀ f ∈ synthetic, f.stored? = none) : p.storedFragments = stored := by
  have hsynthetic : synthetic.filterMap Fragment.stored? = [] := List.filterMap_eq_nil_iff.2 h
  have hstored : (stored.map Fragment.stored).filterMap Fragment.stored? = stored := by
    rw [List.filterMap_map]
    exact List.filterMap_some
  rw [storedFragments, hp, List.filterMap_append, hstored, hsynthetic, List.append_nil]

namespace Module

def install (m : Module) (options : LoadOptions) (counters : Identity) (stored : List StoredFragment)
    (synthetic : List Fragment) : Query Module := do
  let provider : Provider := ⟨← Query.fresh, [stored.map .stored, synthetic]⟩
  let services : Services :=
    { identity := ← Query.fresh, moduleName := m.name, policy := options.settings.policy,
      decoder := options.decoder, counters, provider }
  stored.forM (·.attach services)
  m.attach services
  return m

/-- All that loading does once the header is read and the counters are chosen. -/
def build (library : Library) (options : LoadOptions) (header : Header) (counters : Identity) :
    Query Module := do
  let m ← bare (Name.special header.moduleName) library
  let stored ← m.storedFragments header options.reports counters
  let synthetic ← m.syntheticFragments stored
  m.install options counters stored synthetic

theorem load_eq (library : Library) (options : LoadOptions) : load library options = (do
    let bytes ← Query.ofExcept <|
      library.header.mapError (LoadError.libraryRead library.name "module header")
    let header ← Query.ofExcept <| Header.parse library.name bytes
    build library options header (← options.counters.elim Query.fresh pure)) := by
  unfold load
  cases options.counters <;> rfl

variable {s t : Store}

/-- Things made one after the other are numbered one after the other. -/
theorem runOn_mapM_fresh {ι α : Type} (make : Identity → ι → α) (items : List ι) (s : Store) :
    (items.mapM fun x => do return make (← Query.fresh) x : Query (List α)).runOn s =
      (.ok ((items.zipIdx s.nextIdentity).map fun (x, i) => make i x),
        { s with nextIdentity := s.nextIdentity + items.length }) := by
  induction items generalizing s with
  | nil => rfl
  | cons x rest ih =>
    rw [List.mapM_cons, bind_assoc, runOn_fresh_bind]
    simp only [pure_bind]
    rw [runOn_bind_ok (ih _), runOn_pure]
    simp only [List.zipIdx_cons, List.map_cons, List.length_cons]
    rw [Nat.add_right_comm, Nat.add_assoc]

def storedFrom (m : Module) (header : Header) (reports : Bool) (counters : Identity)
    (n : Identity) : List StoredFragment :=
  ((numberParts [] (header.packages.map QualName.ofText)).zipIdx n).map fun ((package, part), i) =>
    { identity := i, package, part, library := m.library, owner := some m.identity, reports, counters }

theorem runOn_storedFragments (m : Module) (header : Header) (reports : Bool) (counters : Identity)
    (s : Store) : (m.storedFragments header reports counters).runOn s =
      (.ok (m.storedFrom header reports counters s.nextIdentity),
        { s with nextIdentity :=
            s.nextIdentity + (numberParts [] (header.packages.map QualName.ofText)).length }) :=
  runOn_mapM_fresh (fun i (part : QualName × Nat) =>
    ({ identity := i, package := part.1, part := part.2, library := m.library,
       owner := some m.identity, reports, counters } : StoredFragment)) _ s

theorem storedFrom_identities (m : Module) (header : Header) (reports : Bool) (counters n : Identity) :
    (m.storedFrom header reports counters n).map (·.identity) =
      List.range' n (numberParts [] (header.packages.map QualName.ofText)).length := by
  rw [storedFrom, List.map_map]
  exact List.zipIdx_map_snd n _

theorem storedFrom_anonymous (m : Module) (header : Header) (reports : Bool) (counters n : Identity) :
    (m.storedFrom header reports counters n).map StoredFragment.anonymous =
      m.library.storedOf header reports := by
  rw [Library.storedOf, storedFrom, List.map_map]
  conv_rhs => rw [← List.zipIdx_map_fst n (numberParts _ _), List.map_map]
  rfl

/-- What is so of the fragments that a module has beside the stored ones. -/
structure Synthetic (stored : List StoredFragment) (synthetic : List Fragment) : Prop where
  stored? : ∀ f ∈ synthetic, f.stored? = none
  interop : ∃ package,
    (∀ a, .aliasing a ∈ synthetic → a.targets = stored.filter (·.package == package)) ∧
    ∀ e, .exported e ∈ synthetic → e.package = package

/-- Alias fragments for the stored fragments of the stated package, and the exported fragment. -/
def interopFragments (m : Module) (stored : List StoredFragment) (package : QualName) (i : Identity) :
    List Fragment :=
  (ForwardNamespace.all.map fun space =>
    Fragment.aliasing ⟨space, stored.filter (·.package == package), some m.identity⟩) ++
    [.exported ⟨i, package, m.library.manifest.exportedForwardDeclarations⟩]

theorem interopFragments_synthetic (m : Module) (stored : List StoredFragment) (package : QualName)
    (i : Identity) : Synthetic stored (m.interopFragments stored package i) where
  stored? := by
    intro f h
    rcases List.mem_append.1 h with h | h
    · obtain ⟨space, -, rfl⟩ := List.mem_map.1 h
      rfl
    · obtain rfl := List.mem_singleton.1 h
      rfl
  interop := by
    refine ⟨package, fun a h => ?_, fun e h => ?_⟩
    · rcases List.mem_append.1 h with h | h
      · obtain ⟨space, -, heq⟩ := List.mem_map.1 h
        obtain rfl := Fragment.aliasing.inj heq
        rfl
      · cases List.mem_singleton.1 h
    · rcases List.mem_append.1 h with h | h
      · obtain ⟨space, -, heq⟩ := List.mem_map.1 h
        cases heq
      · obtain rfl := Fragment.exported.inj (List.mem_singleton.1 h)
        rfl

theorem filter_anonymous (stored : List StoredFragment) (package : QualName) :
    (stored.filter (·.package == package)).map StoredFragment.anonymous =
      (stored.map StoredFragment.anonymous).filter (·.package == package) := by
  rw [List.filter_map]
  rfl

theorem runOn_syntheticFragments (m : Module) (stored : List StoredFragment) (s : Store) :
    (∃ e, m.library.syntheticOf (stored.map StoredFragment.anonymous) = .error e ∧
      (m.syntheticFragments stored).runOn s = (.error e, s)) ∨
    ∃ synthetic t, m.library.syntheticOf (stored.map StoredFragment.anonymous) =
        .ok (synthetic.map Fragment.anonymous) ∧
      (m.syntheticFragments stored).runOn s = (.ok synthetic, t) ∧ s.Numbers t ∧
      Synthetic stored synthetic := by
  unfold syntheticFragments Library.syntheticOf
  dsimp only
  cases m.library.manifest.isInterop with
  | false => exact .inr ⟨[], s, rfl, rfl, .refl s, ⟨nofun, default, nofun, nofun⟩⟩
  | true =>
    cases m.library.manifest.package with
    | none => exact .inl ⟨_, rfl, rfl⟩
    | some package =>
      refine .inr ⟨m.interopFragments stored package s.nextIdentity, _, ?_, rfl, .fresh s,
        m.interopFragments_synthetic stored package _⟩
      simp [interopFragments, Fragment.anonymous, filter_anonymous]

theorem runOn_attach {f : StoredFragment} (c : Services)
    (hnone : s.services.get? f.identity = none) :
    (f.attach c).runOn s = (.ok ⟨⟩, { s with services := s.services.set f.identity c }) := by
  rw [StoredFragment.attach, runOn_get_bind, hnone]
  rfl

/-- Fragments that are attached for the first time all are, and nothing else is. -/
theorem runOn_attachAll (c : Services) {stored : List StoredFragment}
    (hnodup : (stored.map (·.identity)).Nodup)
    (hnone : ∀ f ∈ stored, s.services.get? f.identity = none) :
    ∃ table, (stored.forM (·.attach c)).runOn s = (.ok ⟨⟩, { s with services := table }) ∧
      (∀ f ∈ stored, table.get? f.identity = some c) ∧
      ∀ i, (∀ f ∈ stored, f.identity ≠ i) → table.get? i = s.services.get? i := by
  induction stored generalizing s with
  | nil => exact ⟨s.services, rfl, by simp, fun _ _ => rfl⟩
  | cons f rest ih =>
    obtain ⟨hnotMem, hrest⟩ := List.nodup_cons.1 hnodup
    have hother {g : StoredFragment} (hg : g ∈ rest) : g.identity ≠ f.identity :=
      fun heq => hnotMem (List.mem_map.2 ⟨g, hg, heq⟩)
    have hattach := runOn_attach c (hnone f List.mem_cons_self)
    obtain ⟨table, hrun, hall, hothers⟩ := ih (s := { s with services := s.services.set f.identity c })
      hrest fun g hg => by
        rw [Table.get?_set, if_neg (hother hg)]
        exact hnone g (List.mem_cons_of_mem f hg)
    refine ⟨table, ?_, ?_, ?_⟩
    · change (f.attach c >>= fun _ => rest.forM (·.attach c)).runOn s = _
      rw [runOn_bind_ok hattach]
      exact hrun
    · intro g hg
      rcases List.mem_cons.1 hg with rfl | hg
      · rw [hothers _ fun k hk => hother hk, Table.get?_set, if_pos rfl]
      · exact hall g hg
    · intro i hi
      rw [hothers i fun k hk => hi k (List.mem_cons_of_mem f hk), Table.get?_set,
        if_neg (hi f List.mem_cons_self).symm]

end Module

/-- What is so of all services that loading makes. -/
structure Services.Assembled (c : Services) : Prop where
  distinct : (c.provider.storedFragments.map (·.identity)).Nodup
  counters : ∀ f ∈ c.provider.storedFragments, f.counters = c.counters
  /-- The stored fragments come first. -/
  layers : ∃ synthetic, c.provider.fragments = c.provider.storedFragments.map .stored ++ synthetic ∧
    ∀ f ∈ synthetic, f.stored? = none
  /-- Aliases show the classes of the one package that the module exports declarations from. -/
  interop : ∃ package,
    (∀ a, .aliasing a ∈ c.provider.fragments →
      a.targets = c.provider.storedFragments.filter (·.package == package)) ∧
    ∀ e, .exported e ∈ c.provider.fragments → e.package = package

/-- The store `t` is `s` with one more module, whose services are `c`. -/
structure Store.Loads (s : Store) (m : Module) (c : Services) (t : Store) : Prop where
  assembled : c.Assembled
  nextIdentity : s.nextIdentity ≤ t.nextIdentity
  module_new : s.nextIdentity ≤ m.identity ∧ m.identity < t.nextIdentity
  services_new : s.nextIdentity ≤ c.identity ∧ c.identity < t.nextIdentity
  provider_new : s.nextIdentity ≤ c.provider.identity ∧ c.provider.identity < t.nextIdentity
  apart : m.identity ≠ c.provider.identity
  stored_new : ∀ f ∈ c.provider.storedFragments,
    s.nextIdentity ≤ f.identity ∧ f.identity < t.nextIdentity
  modules : t.modules = s.modules.set m.identity c
  readers : ∀ f ∈ c.provider.storedFragments, t.services.get? f.identity = some c
  others : ∀ i, (∀ f ∈ c.provider.storedFragments, f.identity ≠ i) →
    t.services.get? i = s.services.get? i
  payloads : t.payloads = s.payloads
  classes : t.classes = s.classes
  missing : t.missing = s.missing
  placeholders : t.placeholders = s.placeholders
  counters : t.counters = s.counters
  accessed : t.accessed = s.accessed
  decoderCalls : t.decoderCalls = s.decoderCalls
  ended : t.ended = s.ended

theorem Services.Assembled.targets {c : Services} (h : c.Assembled) {a : AliasFragment}
    (ha : .aliasing a ∈ c.provider.fragments) : a.targets ⊆ c.provider.storedFragments := by
  obtain ⟨package, htargets, -⟩ := h.interop
  rw [htargets a ha]
  exact List.filter_subset_self _

namespace Store.Loads

variable {s t : Store} {m : Module} {c d : Services}

theorem services?_self (h : s.Loads m c t) : m.services? t = some c := by
  rw [Module.services?, h.modules, Table.get?_set, if_pos rfl]

theorem services? (h : s.Loads m c t) {k : Module} (hk : k.identity < s.nextIdentity) :
    k.services? t = k.services? s := by
  have hne : k.identity ≠ m.identity := Nat.ne_of_lt (Nat.lt_of_lt_of_le hk h.module_new.1)
  rw [Module.services?, Module.services?, h.modules, Table.get?_set, if_neg hne]

theorem knows_cases (h : s.Loads m c t) (hd : t.Knows d) : d = c ∨ s.Knows d := by
  obtain ⟨i, hi⟩ := hd
  rw [h.modules, Table.get?_set] at hi
  split at hi
  · exact .inl (Option.some.inj hi).symm
  · exact .inr ⟨i, hi⟩

theorem stored_lt (hs : s.Sound) (hd : s.Knows d) {f : StoredFragment}
    (hf : f ∈ d.provider.storedFragments) : f.identity < s.nextIdentity :=
  hs.readers_lt _ d (hs.reader d hd f hf)

/-- A store with one more module is sound. -/
theorem sound (h : s.Loads m c t) (hs : s.Sound) : t.Sound where
  reader := by
    intro d hd f hf
    rcases h.knows_cases hd with rfl | hd
    · exact h.readers f hf
    · rw [h.others f.identity fun g hg heq => ?_]
      · exact hs.reader d hd f hf
      · exact Nat.not_lt.2 (h.stored_new g hg).1 (heq ▸ stored_lt hs hd hf)
  fragments := by
    intro d hd e he f hf g hg hi
    rcases h.knows_cases hd with rfl | hd <;> rcases h.knows_cases he with rfl | he
    · exact List.inj_on_of_nodup_map h.assembled.distinct hf hg hi
    · exact absurd (hi ▸ stored_lt hs he hg) (Nat.not_lt.2 (h.stored_new f hf).1)
    · exact absurd (hi ▸ stored_lt hs hd hf) (Nat.not_lt.2 (h.stored_new g hg).1)
    · exact hs.fragments d hd e he f hf g hg hi
  services := by
    intro d hd e he hi
    rcases h.knows_cases hd with rfl | hd <;> rcases h.knows_cases he with rfl | he
    · rfl
    · exact absurd (hi ▸ (hs.identities e he).1) (Nat.not_lt.2 h.services_new.1)
    · exact absurd (hi ▸ (hs.identities d hd).1) (Nat.not_lt.2 h.services_new.1)
    · exact hs.services d hd e he hi
  targets := by
    intro d hd
    rcases h.knows_cases hd with rfl | hd
    · exact fun a ha => h.assembled.targets ha
    · exact hs.targets d hd
  payloads := by
    intro d hd f hf p hp
    rw [h.payloads] at hp
    rcases h.knows_cases hd with rfl | hd
    · exact absurd (hs.payloads_lt _ p hp) (Nat.not_lt.2 (h.stored_new f hf).1)
    · exact hs.payloads d hd f hf p hp
  classes := by
    intro d hd hlive id answer ha
    rw [Remembers, h.classes] at ha
    rcases h.knows_cases hd with rfl | hd
    · exact absurd (hs.classes_lt _ id _ ha) (Nat.not_lt.2 h.services_new.1)
    · rw [hasEnded, h.ended] at hlive
      exact hs.classes d hd hlive id answer ha
  missing := fun i id n k hk => hs.missing i id n k (h.missing ▸ hk)
  placeholders := fun i d k hk => hs.placeholders i d k (h.placeholders ▸ hk)
  identities := by
    intro d hd
    rcases h.knows_cases hd with rfl | hd
    · exact ⟨h.services_new.2, h.provider_new.2⟩
    · exact ⟨Nat.lt_of_lt_of_le (hs.identities d hd).1 h.nextIdentity,
        Nat.lt_of_lt_of_le (hs.identities d hd).2 h.nextIdentity⟩
  modules_lt := by
    intro i d hi
    rw [h.modules, Table.get?_set] at hi
    split at hi
    · rename_i heq
      exact heq ▸ h.module_new.2
    · exact Nat.lt_of_lt_of_le (hs.modules_lt i d hi) h.nextIdentity
  readers_lt := by
    intro i d hi
    by_cases hnew : ∃ f ∈ c.provider.storedFragments, f.identity = i
    · obtain ⟨f, hf, rfl⟩ := hnew
      exact (h.stored_new f hf).2
    · rw [h.others i fun f hf heq => hnew ⟨f, hf, heq⟩] at hi
      exact Nat.lt_of_lt_of_le (hs.readers_lt i d hi) h.nextIdentity
  payloads_lt := fun i p hp =>
    Nat.lt_of_lt_of_le (hs.payloads_lt i p (h.payloads ▸ hp)) h.nextIdentity
  classes_lt := fun i id a ha =>
    Nat.lt_of_lt_of_le (hs.classes_lt i id a (h.classes ▸ ha)) h.nextIdentity

end Store.Loads

namespace Store.Numbers

variable {s t u : Store}

/-- Identities that are given before a module is added make no difference. -/
theorem loads {m : Module} {c : Services} (h : s.Numbers t) (ht : t.Loads m c u) :
    s.Loads m c u := by
  obtain ⟨n, hn, rfl⟩ := h
  exact
    { ht with
      nextIdentity := Nat.le_trans hn ht.nextIdentity
      module_new := ⟨Nat.le_trans hn ht.module_new.1, ht.module_new.2⟩
      services_new := ⟨Nat.le_trans hn ht.services_new.1, ht.services_new.2⟩
      provider_new := ⟨Nat.le_trans hn ht.provider_new.1, ht.provider_new.2⟩
      stored_new := fun f hf => ⟨Nat.le_trans hn (ht.stored_new f hf).1, (ht.stored_new f hf).2⟩ }

end Store.Numbers

namespace Module

variable {s t : Store}

/-- The services that a module gets, when its provider gets the identity `n`. -/
def servicesFrom (m : Module) (options : LoadOptions) (counters : Identity)
    (stored : List StoredFragment) (synthetic : List Fragment) (n : Identity) : Services where
  identity := n + 1
  moduleName := m.name
  policy := options.settings.policy
  decoder := options.decoder
  counters := counters
  provider := ⟨n, [stored.map .stored, synthetic]⟩

theorem runOn_install {m : Module} {options : LoadOptions} {counters : Identity}
    {stored : List StoredFragment} {synthetic : List Fragment} {c : Services}
    (hc : m.servicesFrom options counters stored synthetic s.nextIdentity = c)
    (hnodup : (stored.map (·.identity)).Nodup)
    (hnone : ∀ f ∈ stored, s.services.get? f.identity = none)
    (hmodule : s.modules.get? m.identity = none) :
    ∃ table, (m.install options counters stored synthetic).runOn s =
        (.ok m, { s with
          nextIdentity := s.nextIdentity + 1 + 1
          services := table
          modules := s.modules.set m.identity c }) ∧
      (∀ f ∈ stored, table.get? f.identity = some c) ∧
      ∀ i, (∀ f ∈ stored, f.identity ≠ i) → table.get? i = s.services.get? i := by
  let t : Store := { s with nextIdentity := s.nextIdentity + 1 + 1 }
  obtain ⟨table, hattach, hreaders, hothers⟩ := runOn_attachAll (s := t) c hnodup hnone
  refine ⟨table, ?_, hreaders, hothers⟩
  have hinitialized : m.isInitialized { t with services := table } = false := by
    change (s.modules.get? m.identity).isSome = false
    rw [hmodule]
    rfl
  have hattachments : (m.install options counters stored synthetic).runOn s =
      (do stored.forM (·.attach c); m.attach c; return m : Query Module).runOn t := by
    rw [install, runOn_fresh_bind, runOn_fresh_bind, ← hc]
    rfl
  rw [hattachments, runOn_bind_ok hattach, runOn_bind, attach, runOn_get_bind, hinitialized]
  rfl

theorem install_loads (hs : s.Sound) (ht : s.Numbers t) {m : Module}
    (hm : s.nextIdentity ≤ m.identity ∧ m.identity < t.nextIdentity) {stored : List StoredFragment}
    (hstored : ∀ f ∈ stored, s.nextIdentity ≤ f.identity ∧ f.identity < t.nextIdentity)
    {synthetic : List Fragment} {options : LoadOptions} {counters : Identity} {c : Services}
    (hc : m.servicesFrom options counters stored synthetic t.nextIdentity = c)
    (hassembled : c.Assembled) (hfragments : c.provider.storedFragments = stored) :
    ∃ u, (m.install options counters stored synthetic).runOn t = (.ok m, u) ∧ s.Loads m c u := by
  have hnodup := hassembled.distinct
  rw [hfragments] at hnodup
  have hnone : ∀ f ∈ stored, s.services.get? f.identity = none := by
    intro f hf
    cases hget : s.services.get? f.identity with
    | none => rfl
    | some d => exact absurd (hs.readers_lt _ d hget) (Nat.not_lt.2 (hstored f hf).1)
  have hmodule : s.modules.get? m.identity = none := by
    cases hget : s.modules.get? m.identity with
    | none => rfl
    | some d => exact absurd (hs.modules_lt _ d hget) (Nat.not_lt.2 hm.1)
  obtain ⟨n, hn, rfl⟩ := ht
  obtain ⟨table, hrun, hreaders, hothers⟩ := runOn_install hc hnodup hnone hmodule
  refine ⟨_, hrun, ?_⟩
  have hnext : n ≤ n + 1 + 1 := Nat.le_add_right _ 2
  subst hc
  exact
    { assembled := hassembled
      nextIdentity := Nat.le_trans hn hnext
      module_new := ⟨hm.1, Nat.lt_of_lt_of_le hm.2 hnext⟩
      services_new := ⟨Nat.le_trans hn (Nat.le_succ _), Nat.lt_succ_self _⟩
      provider_new := ⟨hn, Nat.lt_succ_of_lt (Nat.lt_succ_self _)⟩
      apart := Nat.ne_of_lt hm.2
      stored_new := fun f hf =>
        have hf := hstored f (hfragments ▸ hf)
        ⟨hf.1, Nat.lt_of_lt_of_le hf.2 hnext⟩
      modules := rfl
      readers := fun f hf => hreaders f (hfragments ▸ hf)
      others := fun i hi => hothers i fun f hf => hi f (hfragments.symm ▸ hf)
      payloads := rfl
      classes := rfl
      missing := rfl
      placeholders := rfl
      counters := rfl
      accessed := rfl
      decoderCalls := rfl
      ended := rfl }

theorem storedFrom_nodup (m : Module) (header : Header) (reports : Bool) (counters n : Identity) :
    ((m.storedFrom header reports counters n).map (·.identity)).Nodup := by
  rw [storedFrom_identities]
  exact List.nodup_range'

theorem storedFrom_counters {m : Module} {header : Header} {reports : Bool} {counters n : Identity}
    {f : StoredFragment} (h : f ∈ m.storedFrom header reports counters n) : f.counters = counters := by
  obtain ⟨part, -, rfl⟩ := List.mem_map.1 h
  rfl

theorem storedFrom_bounds {m : Module} {header : Header} {reports : Bool} {counters n : Identity}
    {f : StoredFragment} (h : f ∈ m.storedFrom header reports counters n) :
    n ≤ f.identity ∧
      f.identity < n + (numberParts [] (header.packages.map QualName.ofText)).length := by
  have hi := List.mem_map_of_mem (f := (·.identity)) h
  rw [storedFrom_identities, List.mem_range'_1] at hi
  exact hi

theorem servicesFrom_fragments (m : Module) (options : LoadOptions) (counters : Identity)
    (stored : List StoredFragment) (synthetic : List Fragment) (n : Identity) :
    (m.servicesFrom options counters stored synthetic n).provider.fragments =
      stored.map .stored ++ synthetic := by
  simp [servicesFrom, Provider.fragments]

theorem servicesFrom_storedFragments (m : Module) (options : LoadOptions) (counters : Identity)
    {stored : List StoredFragment} {synthetic : List Fragment} (n : Identity)
    (hsynthetic : Synthetic stored synthetic) :
    (m.servicesFrom options counters stored synthetic n).provider.storedFragments = stored :=
  Provider.storedFragments_layers (m.servicesFrom_fragments options counters stored synthetic n)
    hsynthetic.stored?

theorem servicesFrom_assembled (m : Module) (options : LoadOptions) {counters : Identity}
    {stored : List StoredFragment} {synthetic : List Fragment} (n : Identity)
    (hnodup : (stored.map (·.identity)).Nodup) (hcounters : ∀ f ∈ stored, f.counters = counters)
    (hsynthetic : Synthetic stored synthetic) :
    (m.servicesFrom options counters stored synthetic n).Assembled := by
  have hfragments := m.servicesFrom_fragments options counters stored synthetic n
  have hstored := m.servicesFrom_storedFragments options counters n hsynthetic
  obtain ⟨package, htargets, hexported⟩ := hsynthetic.interop
  refine ⟨by rwa [hstored], by rwa [hstored], ⟨synthetic, ?_, hsynthetic.stored?⟩, package, ?_, ?_⟩
  · rw [hfragments, hstored]
  · intro a ha
    rw [hstored]
    exact htargets a (by simpa [hfragments] using ha)
  · intro e he
    exact hexported e (by simpa [hfragments] using he)

theorem servicesFrom_anonymous (m : Module) (options : LoadOptions) (counters : Identity)
    (stored : List StoredFragment) (synthetic : List Fragment) (n : Identity) :
    (m.servicesFrom options counters stored synthetic n).anonymous =
      { identity := 0, moduleName := m.name, policy := options.settings.policy,
        decoder := options.decoder, counters := 0,
        provider := ⟨0, [(stored.map StoredFragment.anonymous).map .stored,
          synthetic.map Fragment.anonymous]⟩ } := by
  simp [servicesFrom, Services.anonymous, Provider.anonymous, Function.comp_def, Fragment.anonymous]

theorem build_cases (hs : s.Sound) (library : Library) (options : LoadOptions) (header : Header)
    (counters : Identity) :
    (∃ e t, library.servicesFrom options header = .error e ∧
      (build library options header counters).runOn s = (.error e, t) ∧ s.Numbers t) ∨
    ∃ m c t, library.servicesFrom options header = .ok c.anonymous ∧
      (build library options header counters).runOn s = (.ok m, t) ∧ s.Loads m c t := by
  let m : Module := ⟨s.nextIdentity, Name.special header.moduleName, library⟩
  let stored := m.storedFrom header options.reports counters (s.nextIdentity + 1)
  let t : Store := { s with nextIdentity := s.nextIdentity + 1 +
    (numberParts [] (header.packages.map QualName.ofText)).length }
  have ht : s.Numbers t := ⟨_, Nat.le_trans (Nat.le_succ _) (Nat.le_add_right _ _), rfl⟩
  have hm : s.nextIdentity ≤ m.identity ∧ m.identity < t.nextIdentity :=
    ⟨Nat.le_refl _, Nat.lt_of_lt_of_le (Nat.lt_succ_self _) (Nat.le_add_right _ _)⟩
  have hbounds : ∀ f ∈ stored, s.nextIdentity ≤ f.identity ∧ f.identity < t.nextIdentity :=
    fun f hf => ⟨Nat.le_of_succ_le (storedFrom_bounds hf).1, (storedFrom_bounds hf).2⟩
  have hstored : stored.map StoredFragment.anonymous = library.storedOf header options.reports :=
    storedFrom_anonymous m header _ _ _
  have hbuild : (build library options header counters).runOn s =
      (m.syntheticFragments stored >>= m.install options counters stored).runOn t := by
    rw [build, bare, bind_assoc, runOn_fresh_bind]
    simp only [pure_bind]
    rw [runOn_bind_ok (runOn_storedFragments m _ _ _ _)]
  rw [hbuild, Library.servicesFrom]
  rcases runOn_syntheticFragments m stored t with ⟨e, hmeans, hrun⟩ |
    ⟨synthetic, u, hmeans, hrun, hu, hsynthetic⟩
  · rw [hstored] at hmeans
    exact .inl ⟨e, t, by rw [hmeans]; rfl, by rw [runOn_bind, hrun], ht⟩
  · rw [hstored] at hmeans
    have hle : t.nextIdentity ≤ u.nextIdentity := hu.counts.nextIdentity
    have hassembled := m.servicesFrom_assembled options u.nextIdentity
      (storedFrom_nodup m header _ counters _) (fun f hf => storedFrom_counters hf) hsynthetic
    obtain ⟨v, hinstall, hloads⟩ := install_loads hs (ht.trans hu) ⟨hm.1, Nat.lt_of_lt_of_le hm.2 hle⟩
      (fun f hf => ⟨(hbounds f hf).1, Nat.lt_of_lt_of_le (hbounds f hf).2 hle⟩) rfl hassembled
      (servicesFrom_storedFragments m options _ _ hsynthetic)
    refine .inr ⟨m, _, v, ?_, by rw [runOn_bind_ok hrun, hinstall], hloads⟩
    rw [servicesFrom_anonymous, hstored, hmeans]
    rfl

theorem decoder_of_servicesOf {library : Library} {options : LoadOptions} {c : Services}
    (h : library.servicesOf options = .ok c) : c.decoder = options.decoder := by
  obtain ⟨bytes, -, h⟩ := except_bind_eq_ok.1 h
  obtain ⟨header, -, h⟩ := except_bind_eq_ok.1 h
  obtain ⟨synthetic, -, h⟩ := except_bind_eq_ok.1 h
  exact Except.ok.inj h ▸ rfl

/-- Loading fails with nothing but identities given, or adds one module, which is what the library
and the options say. -/
theorem load_cases (hs : s.Sound) (library : Library) (options : LoadOptions) :
    (∃ e t, library.servicesOf options = .error e ∧
      (load library options).runOn s = (.error e, t) ∧ s.Numbers t) ∨
    ∃ m c t, library.servicesOf options = .ok c.anonymous ∧
      (load library options).runOn s = (.ok m, t) ∧ s.Loads m c t := by
  rw [load_eq, Library.servicesOf]
  cases hbytes : library.header.mapError (LoadError.libraryRead library.name "module header") with
  | error e => exact .inl ⟨e, s, rfl, rfl, .refl s⟩
  | ok bytes =>
    rw [runOn_bind_ok (runOn_ofExcept _ s)]
    change (∃ e t, Header.parse library.name bytes >>= _ = _ ∧ _) ∨
      ∃ m c t, Header.parse library.name bytes >>= _ = _ ∧ _
    cases hheader : Header.parse library.name bytes with
    | error e => exact .inl ⟨e, s, rfl, rfl, .refl s⟩
    | ok header =>
      rw [runOn_bind_ok (runOn_ofExcept _ s)]
      cases options.counters with
      | some i => exact build_cases hs library options header i
      | none =>
        have hfresh := Store.Numbers.fresh s
        rcases build_cases (hfresh.counts.reads.sound hs) library options header s.nextIdentity with
          ⟨e, t, hmeans, hrun, ht⟩ | ⟨m, c, t, hmeans, hrun, ht⟩
        · exact .inl ⟨e, t, hmeans, hrun, hfresh.trans ht⟩
        · exact .inr ⟨m, c, t, hmeans, hrun, hfresh.loads ht⟩

end Module

end SymbolAtlas
