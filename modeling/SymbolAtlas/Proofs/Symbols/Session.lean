import SymbolAtlas.Proofs.Symbols.Evolution
import SymbolAtlas.Proofs.Symbols.Questions
import SymbolAtlas.Symbols.Session

namespace SymbolAtlas

open Query Relation

namespace Session

/-- The session after loading a library, into the next slot when loading succeeds. -/
def load (s : Session) (library : Library) (options : LoadOptions) : Session :=
  match s.query (Module.load library options) with
  | (.ok m, s) => s.hold m
  | (.error _, s) => s

/-- The session with one more module, which has no services. -/
def make (s : Session) (name : Name) (library : Library) : Session :=
  match s.query (Module.bare name library) with
  | (.ok m, s) => s.hold m
  | (.error _, s) => s

/-- The session after `m` was to get the services of `source`. -/
def equip (s : Session) (m source : Module) : Session :=
  (s.query (do m.attach (← source.services))).2

def add (s : Session) (m : Module) : Session :=
  { s with graph := s.graph.add m }

inductive Step (s : Session) : Session → Prop
  | asked {α : Type} {q : Query α} (h : s.store.Asks q) : Step s (s.query q).2
  | counters (name : String) : Step s (s.countersNamed name).2
  | loaded (library : Library) (options : LoadOptions) : Step s (s.load library options)
  | made (name : Name) (library : Library) : Step s (s.make name library)
  | equipped {m source : Module} (hm : m ∈ s.modulesInUse) (hsource : source ∈ s.modulesInUse) :
      Step s (s.equip m source)
  | added {m : Module} (hm : m ∈ s.modulesInUse) : Step s (s.add m)
  | dropped (slot : Nat) : Step s (s.drop slot)

def Reachable (s : Session) : Prop :=
  ReflTransGen Step {} s

structure Sound (s : Session) : Prop where
  store : s.store.Sound
  modules_lt : ∀ m ∈ s.modulesInUse, m.identity < s.store.nextIdentity
  ended_lt : ∀ i ∈ s.store.ended, i < s.store.nextIdentity
  apart : ∀ m ∈ s.modulesInUse, ∀ c, s.store.Knows c → m.identity ≠ c.provider.identity
  live : ∀ m ∈ s.modulesInUse, ∀ c, m.services? s.store = some c →
    s.store.hasEnded c.provider.identity = false

variable {s : Session}

theorem sound_start : Sound {} where
  store := Store.sound_start
  modules_lt := fun _ h => by cases h
  ended_lt := fun _ h => by cases h
  apart := fun _ h => by cases h
  live := fun _ h => by cases h

/-- A library that is loaded puts its module into the next slot. -/
theorem load_of_ok {library : Library} {options : LoadOptions} {m : Module} {t : Store}
    (h : (Module.load library options).runOn s.store = (.ok m, t)) :
    s.load library options = ({ s with store := t } : Session).hold m := by
  unfold Session.load query
  rw [h]

/-- A library that is refused leaves the session as it is, but for the store. -/
theorem load_of_error {library : Library} {options : LoadOptions} {e : LoadError} {t : Store}
    (h : (Module.load library options).runOn s.store = (.error e, t)) :
    s.load library options = { s with store := t } := by
  unfold Session.load query
  rw [h]

/-- The invariant holds on as the store grows. -/
theorem Sound.grows (h : s.Sound) {t : Session} (hstore : s.store.Grows t.store)
    (hslots : t.slots = s.slots) (hgraph : t.graph = s.graph) : t.Sound := by
  have huse : t.modulesInUse = s.modulesInUse := by rw [modulesInUse, modulesInUse, hslots, hgraph]
  have hle := hstore.nextIdentity
  refine ⟨hstore.sound h.store, ?_, ?_, ?_, ?_⟩
  · intro m hm
    exact Nat.lt_of_lt_of_le (h.modules_lt m (huse ▸ hm)) hle
  · intro i hi
    exact Nat.lt_of_lt_of_le (h.ended_lt i (hstore.ended ▸ hi)) hle
  · intro m hm c hc
    exact h.apart m (huse ▸ hm) c (hstore.knows_iff.1 hc)
  · intro m hm c hc
    rw [hstore.services?] at hc
    rw [hstore.hasEnded]
    exact h.live m (huse ▸ hm) c hc

theorem mem_hold {m k : Module} : k ∈ (s.hold m).modulesInUse ↔ k ∈ s.modulesInUse ∨ k = m := by
  simp only [modulesInUse, hold, List.filterMap_append, List.mem_append]
  constructor
  · rintro ((h | h) | h)
    · exact .inl (.inl h)
    · exact .inr (List.mem_singleton.1 h)
    · exact .inl (.inr h)
  · rintro ((h | h) | h)
    · exact .inl (.inl h)
    · exact .inr h
    · exact .inl (.inr (List.mem_singleton.2 h))

theorem mem_add {m k : Module} : k ∈ (s.add m).modulesInUse ↔ k ∈ s.modulesInUse ∨ k = m := by
  simp [modulesInUse, add, ModuleGraph.add, or_assoc]

/-- A module that is loaded is in use, and its provider with it. -/
theorem Sound.hold_loads (h : s.Sound) {m : Module} {c : Services} {t : Store}
    (ht : s.store.Loads m c t) : (({ s with store := t } : Session).hold m).Sound where
  store := ht.sound h.store
  modules_lt := by
    intro k hk
    rcases mem_hold.1 hk with hk | rfl
    · exact Nat.lt_of_lt_of_le (h.modules_lt k hk) ht.nextIdentity
    · exact ht.module_new.2
  ended_lt := fun i hi => Nat.lt_of_lt_of_le (h.ended_lt i (ht.ended ▸ hi)) ht.nextIdentity
  apart := by
    intro k hk d hd
    rcases mem_hold.1 hk with hk | rfl <;> rcases ht.knows_cases hd with rfl | hd
    · exact Nat.ne_of_lt (Nat.lt_of_lt_of_le (h.modules_lt k hk) ht.provider_new.1)
    · exact h.apart k hk d hd
    · exact ht.apart
    · exact Nat.ne_of_gt (Nat.lt_of_lt_of_le (h.store.identities d hd).2 ht.module_new.1)
  live := by
    intro k hk d hd
    change t.hasEnded d.provider.identity = false
    rw [Store.hasEnded, ht.ended]
    rcases mem_hold.1 hk with hk | rfl
    · exact h.live k hk d ((ht.services? (h.modules_lt k hk)).symm.trans hd)
    · obtain rfl : c = d := Option.some.inj (ht.services?_self.symm.trans hd)
      apply Bool.eq_false_iff.2
      intro hended
      have hlt := h.ended_lt _ (List.contains_iff_mem.1 hended)
      exact Nat.not_lt.2 ht.provider_new.1 hlt

theorem Sound.load (h : s.Sound) (library : Library) (options : LoadOptions) :
    (s.load library options).Sound := by
  rcases Module.load_cases h.store library options with ⟨e, t, -, hrun, ht⟩ | ⟨m, c, t, -, hrun, ht⟩
  · rw [load_of_error hrun]
    exact h.grows (t := { s with store := t }) ht.counts.reads.toGrows rfl rfl
  · rw [load_of_ok hrun]
    exact h.hold_loads ht

theorem Sound.make (h : s.Sound) (name : Name) (library : Library) : (s.make name library).Sound := by
  have hfresh := h.grows (t := { s with store := { s.store with
    nextIdentity := s.store.nextIdentity + 1 } }) (Store.Counts.fresh s.store).reads.toGrows rfl rfl
  let m : Module := ⟨s.store.nextIdentity, name, library⟩
  change (Session.hold { s with store := { s.store with
    nextIdentity := s.store.nextIdentity + 1 } } m).Sound
  refine ⟨hfresh.store, ?_, hfresh.ended_lt, ?_, ?_⟩
  · intro k hk
    rcases mem_hold.1 hk with hk | rfl
    · exact hfresh.modules_lt k hk
    · exact Nat.lt_succ_self _
  · intro k hk c hc
    rcases mem_hold.1 hk with hk | rfl
    · exact hfresh.apart k hk c hc
    · exact Nat.ne_of_gt (h.store.identities c hc).2
  · intro k hk c hc
    rcases mem_hold.1 hk with hk | rfl
    · exact hfresh.live k hk c hc
    · exact absurd (h.store.modules_lt _ c hc) (Nat.lt_irrefl _)

theorem Sound.add (h : s.Sound) {m : Module} (hm : m ∈ s.modulesInUse) : (s.add m).Sound := by
  have huse {k : Module} (hk : k ∈ (s.add m).modulesInUse) : k ∈ s.modulesInUse :=
    (mem_add.1 hk).elim id fun heq => heq ▸ hm
  exact ⟨h.store, fun k hk => h.modules_lt k (huse hk), h.ended_lt,
    fun k hk => h.apart k (huse hk), fun k hk => h.live k (huse hk)⟩

/-- Modules that are not in use can end, and providers that no module in use has. -/
theorem Sound.endings (h : s.Sound) {ended : List Identity}
    (hlt : ∀ i ∈ ended, i < s.store.nextIdentity)
    (hlive : ∀ m ∈ s.modulesInUse, ∀ c, m.services? s.store = some c → c.provider.identity ∉ ended) :
    ({ s with store := { s.store with ended := ended ++ s.store.ended } } : Session).Sound := by
  have hended (i : Identity) :
      ({ s.store with ended := ended ++ s.store.ended } : Store).hasEnded i = false ↔
        i ∉ ended ∧ s.store.hasEnded i = false := by
    simp [Store.hasEnded]
  refine ⟨h.store.ended ended, h.modules_lt, ?_, h.apart, ?_⟩
  · intro i hi
    rcases List.mem_append.1 hi with hi | hi
    · exact hlt i hi
    · exact h.ended_lt i hi
  · intro m hm c hc
    exact (hended _).2 ⟨hlive m hm c hc, h.live m hm c hc⟩

theorem mem_of_module? {slot : Nat} {m : Module} (h : s.module? slot = some m) :
    m ∈ s.modulesInUse := by
  have hslot : some m ∈ s.slots := List.mem_of_getElem? (Option.join_eq_some_iff.1 h)
  exact List.mem_append_left _ (List.mem_filterMap.2 ⟨some m, hslot, rfl⟩)

theorem mem_of_mem_emptied {slot : Nat} {m : Module}
    (h : m ∈ ({ s with slots := s.slots.set slot none } : Session).modulesInUse) :
    m ∈ s.modulesInUse := by
  rcases List.mem_append.1 h with h | h
  · obtain ⟨_, hslot, rfl⟩ := List.mem_filterMap.1 h
    rcases List.mem_or_eq_of_mem_set hslot with hslot | hslot
    · exact List.mem_append_left _ (List.mem_filterMap.2 ⟨some m, hslot, rfl⟩)
    · cases hslot
  · exact List.mem_append_right _ h

theorem Sound.drop (h : s.Sound) (slot : Nat) : (s.drop slot).Sound := by
  unfold Session.drop
  cases hm : s.module? slot with
  | none => exact h
  | some m =>
    have huse := mem_of_module? hm
    have hemptied : ({ s with slots := s.slots.set slot none } : Session).Sound :=
      ⟨h.store, fun k hk => h.modules_lt k (mem_of_mem_emptied hk), h.ended_lt,
        fun k hk => h.apart k (mem_of_mem_emptied hk), fun k hk => h.live k (mem_of_mem_emptied hk)⟩
    refine hemptied.endings ?_ ?_
    · intro i hi
      rcases List.mem_append.1 hi with hi | hi
      · obtain rfl := List.mem_singleton.1 (List.mem_filter.1 hi).1
        exact h.modules_lt m huse
      · obtain ⟨c, hc, rfl⟩ := Option.map_eq_some_iff.1 (Option.mem_toList.1 (List.mem_filter.1 hi).1)
        exact (h.store.identities c (Module.knows_of_services? hc)).2
    · intro k hk c hc hi
      rcases List.mem_append.1 hi with hi | hi
      · have heq := List.mem_singleton.1 (List.mem_filter.1 hi).1
        exact h.apart m huse c (Module.knows_of_services? hc) heq.symm
      · have hnot := (List.mem_filter.1 hi).2
        have hin : c.provider.identity ∈
            ({ s with slots := s.slots.set slot none } : Session).providersInUse :=
          List.mem_filterMap.2 ⟨k, hk, by rw [hc]; rfl⟩
        simp [hin] at hnot

/-- A module can have the services of another one in use. -/
theorem Sound.share (h : s.Sound) {m source : Module} {c : Services} (hm : m ∈ s.modulesInUse)
    (hsource : source ∈ s.modulesInUse) (hc : source.services? s.store = some c) :
    ({ s with store := { s.store with modules := s.store.modules.set m.identity c } } : Session).Sound := by
  have hcknown := Module.knows_of_services? hc
  refine ⟨h.store.shared (h.modules_lt m hm) hcknown, h.modules_lt, h.ended_lt,
    fun k hk d hd => h.apart k hk d (Store.knows_of_shared hcknown hd), ?_⟩
  intro k hk d hd
  rw [Module.services?, Table.get?_set] at hd
  split at hd
  · exact Option.some.inj hd ▸ h.live source hsource c hc
  · exact h.live k hk d hd

theorem Sound.equip (h : s.Sound) {m source : Module} (hm : m ∈ s.modulesInUse)
    (hsource : source ∈ s.modulesInUse) : (s.equip m source).Sound := by
  unfold Session.equip query
  cases hc : source.services? s.store with
  | none =>
    rw [runOn_bind, Module.runOn_services_none hc]
    exact h
  | some c =>
    rw [runOn_bind_ok (Module.runOn_services hc), Module.attach, runOn_get_bind]
    cases m.isInitialized s.store with
    | true => exact h
    | false => exact h.share hm hsource hc

theorem Sound.step {t : Session} (h : s.Sound) (hstep : Step s t) : t.Sound := by
  cases hstep with
  | asked hq => exact h.grows (hq.keeps h.store).grows rfl rfl
  | counters name =>
    unfold countersNamed
    split
    · exact h
    · exact h.grows (Store.Counts.fresh s.store).reads.toGrows rfl rfl
  | loaded library options => exact h.load library options
  | made name library => exact h.make name library
  | equipped hm hsource => exact h.equip hm hsource
  | added hm => exact h.add hm
  | dropped slot => exact h.drop slot

/-- **The invariant holds in every session.** -/
theorem Reachable.sound (h : s.Reachable) : s.Sound := by
  induction h with
  | refl => exact sound_start
  | tail _ hstep ih => exact ih.step hstep

/-! ## Stores of sessions -/

theorem Sound.equip_steps (h : s.Sound) {m source : Module} (hm : m ∈ s.modulesInUse) :
    s.store.Steps (s.equip m source).store := by
  unfold Session.equip query
  cases hc : source.services? s.store with
  | none =>
    rw [runOn_bind, Module.runOn_services_none hc]
    exact .refl
  | some c =>
    rw [runOn_bind_ok (Module.runOn_services hc), Module.attach, runOn_get_bind]
    cases hi : m.isInitialized s.store with
    | true => exact .refl
    | false =>
      have hnone : s.store.modules.get? m.identity = none := by
        simpa [Module.isInitialized, Module.services?] using hi
      exact .single (.shared (h.modules_lt m hm) (Module.knows_of_services? hc) hnone)

/-- What happens in a session happens to its store. -/
theorem Step.store {t : Session} (h : Step s t) (hs : s.Sound) : s.store.Steps t.store := by
  cases h with
  | asked hq => exact Store.Changes.steps (hq.keeps hs.store)
  | counters name =>
    unfold countersNamed
    split
    · exact .refl
    · exact .single (.numbered (.fresh s.store))
  | loaded library options =>
    rcases Module.load_cases hs.store library options with ⟨e, t, -, hrun, ht⟩ | ⟨m, c, t, -, hrun, ht⟩
    · rw [load_of_error hrun]
      exact .single (.numbered ht)
    · rw [load_of_ok hrun]
      exact .single (.loaded ht)
  | made name library => exact .single (.numbered (.fresh s.store))
  | equipped hm => exact hs.equip_steps hm
  | added => exact .refl
  | dropped slot =>
    unfold Session.drop
    cases s.module? slot with
    | none => exact .refl
    | some m => exact .single (.ended _)

def Steps : Session → Session → Prop :=
  ReflTransGen Step

theorem Steps.sound {t : Session} (h : s.Steps t) (hs : s.Sound) : t.Sound := by
  induction h with
  | refl => exact hs
  | tail _ hstep ih => exact ih.step hstep

theorem Steps.store {t : Session} (h : s.Steps t) (hs : s.Sound) : s.store.Steps t.store := by
  induction h with
  | refl => exact .refl
  | tail hsteps hstep ih => exact ih.trans (hstep.store (Steps.sound hsteps hs))

theorem Reachable.steps {t : Session} (h : s.Reachable) (ht : s.Steps t) : t.Reachable :=
  ReflTransGen.trans h ht

theorem Reachable.store (h : s.Reachable) : s.store.Reachable :=
  Steps.store h sound_start

end Session

end SymbolAtlas
