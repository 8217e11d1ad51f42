import SymbolAtlas.Proofs.Symbols.Answers
import SymbolAtlas.Proofs.Symbols.Meaning

/-!
# Sound stores

A store is sound when what it remembers is what the libraries mean, and when what is told apart by
its identity is different. Look-ups only add to a store.

* `Store.Sound`: the invariant of every store that loading and look-ups lead to;
* `Store.Grows`: what any look-up keeps of a store;
* `Store.Reads`: what is kept when, beyond that, no class is remembered and no declaration gets its
  placeholder.
-/

namespace SymbolAtlas

namespace Store

def Knows (s : Store) (c : Services) : Prop :=
  ∃ m, s.modules.get? m = some c

/-- The services as they answer now. -/
def current (s : Store) (c : Services) : Services :=
  if s.hasEnded c.provider.identity then c.emptied else c

def Remembers (s : Store) (c : Services) (id : ClassId) (answer : Option ClassDescriptor) : Prop :=
  s.classes.get? (c.identity, id) = some (some answer)

/-- What a store remembers is what the libraries mean. A class that was looked for after its
provider had ended may be remembered as missing when it is not. -/
structure Sound (s : Store) : Prop where
  /-- A fragment reads with the services of its module. -/
  reader : ∀ c, s.Knows c → ∀ f ∈ c.provider.storedFragments, s.services.get? f.identity = some c
  fragments : ∀ c, s.Knows c → ∀ d, s.Knows d → ∀ f ∈ c.provider.storedFragments,
    ∀ g ∈ d.provider.storedFragments, f.identity = g.identity → f = g
  services : ∀ c, s.Knows c → ∀ d, s.Knows d → c.identity = d.identity → c = d
  targets : ∀ c, s.Knows c → ∀ a, .aliasing a ∈ c.provider.fragments → ∀ f ∈ a.targets,
    f ∈ c.provider.storedFragments
  payloads : ∀ c, s.Knows c → ∀ f ∈ c.provider.storedFragments, ∀ p,
    s.payloads.get? f.identity = some p → f.reading c = .ok p
  classes : ∀ c, s.Knows c → s.hasEnded c.provider.identity = false → ∀ id answer,
    s.Remembers c id answer → c.classOf id = .ok (answer.map ClassDescriptor.anonymous)
  missing : ∀ i id n m, s.missing.get? (i, id, n) = some m → m.anonymous = ⟨0, id, n⟩
  placeholders : ∀ i d c, s.placeholders.get? (i, d) = some c → c.anonymous = .ofDeclaration 0 d
  /-- Whatever has an identity was made before. -/
  identities : ∀ c, s.Knows c → c.identity < s.nextIdentity ∧ c.provider.identity < s.nextIdentity
  modules_lt : ∀ i c, s.modules.get? i = some c → i < s.nextIdentity
  readers_lt : ∀ i c, s.services.get? i = some c → i < s.nextIdentity
  payloads_lt : ∀ i p, s.payloads.get? i = some p → i < s.nextIdentity
  classes_lt : ∀ i id a, s.classes.get? (i, id) = some a → i < s.nextIdentity

/-- `t` is `s` after look-ups. -/
structure Grows (s t : Store) : Prop where
  sound : s.Sound → t.Sound
  modules : t.modules = s.modules
  services : t.services = s.services
  ended : t.ended = s.ended
  nextIdentity : s.nextIdentity ≤ t.nextIdentity
  payloads : ∀ i p, s.payloads.get? i = some p → t.payloads.get? i = some p
  classes : ∀ c id answer, s.Remembers c id answer → t.Remembers c id answer
  missing : ∀ key m, s.missing.get? key = some m → t.missing.get? key = some m
  placeholders : ∀ key c, s.placeholders.get? key = some c → t.placeholders.get? key = some c

/-- `t` is `s` after look-ups that remember no class and no placeholder of a declaration. -/
structure Reads (s t : Store) : Prop extends Grows s t where
  sameClasses : t.classes = s.classes
  samePlaceholders : t.placeholders = s.placeholders

/-- `t` is `s` with other counters and reports, after some identities were given. -/
structure Counts (s t : Store) : Prop where
  modules : t.modules = s.modules
  services : t.services = s.services
  ended : t.ended = s.ended
  nextIdentity : s.nextIdentity ≤ t.nextIdentity
  payloads : t.payloads = s.payloads
  classes : t.classes = s.classes
  missing : t.missing = s.missing
  placeholders : t.placeholders = s.placeholders

theorem Grows.refl (s : Store) : s.Grows s :=
  ⟨id, rfl, rfl, rfl, Nat.le_refl _, fun _ _ h => h, fun _ _ _ h => h, fun _ _ h => h, fun _ _ h => h⟩

theorem Grows.trans {s t u : Store} (h₁ : s.Grows t) (h₂ : t.Grows u) : s.Grows u where
  sound := fun h => h₂.sound (h₁.sound h)
  modules := h₂.modules.trans h₁.modules
  services := h₂.services.trans h₁.services
  ended := h₂.ended.trans h₁.ended
  nextIdentity := Nat.le_trans h₁.nextIdentity h₂.nextIdentity
  payloads := fun i p h => h₂.payloads i p (h₁.payloads i p h)
  classes := fun c id a h => h₂.classes c id a (h₁.classes c id a h)
  missing := fun key m h => h₂.missing key m (h₁.missing key m h)
  placeholders := fun key c h => h₂.placeholders key c (h₁.placeholders key c h)

theorem Reads.refl (s : Store) : s.Reads s :=
  ⟨.refl s, rfl, rfl⟩

theorem Reads.trans {s t u : Store} (h₁ : s.Reads t) (h₂ : t.Reads u) : s.Reads u :=
  ⟨h₁.toGrows.trans h₂.toGrows, h₂.sameClasses.trans h₁.sameClasses,
    h₂.samePlaceholders.trans h₁.samePlaceholders⟩

theorem Counts.refl (s : Store) : s.Counts s :=
  ⟨rfl, rfl, rfl, Nat.le_refl _, rfl, rfl, rfl, rfl⟩

theorem Counts.trans {s t u : Store} (h₁ : s.Counts t) (h₂ : t.Counts u) : s.Counts u :=
  ⟨h₂.modules.trans h₁.modules, h₂.services.trans h₁.services, h₂.ended.trans h₁.ended,
    Nat.le_trans h₁.nextIdentity h₂.nextIdentity, h₂.payloads.trans h₁.payloads,
    h₂.classes.trans h₁.classes, h₂.missing.trans h₁.missing,
    h₂.placeholders.trans h₁.placeholders⟩

instance : Trans Counts Counts Counts := ⟨Counts.trans⟩

instance : Trans Grows Grows Grows := ⟨Grows.trans⟩

instance : Trans Reads Reads Reads := ⟨Reads.trans⟩

section

variable {s t : Store} {c : Services}

theorem Grows.knows_iff (h : s.Grows t) : t.Knows c ↔ s.Knows c := by
  rw [Knows, Knows, h.modules]

theorem Grows.hasEnded (h : s.Grows t) (i : Identity) : t.hasEnded i = s.hasEnded i := by
  rw [Store.hasEnded, Store.hasEnded, h.ended]

theorem Grows.current (h : s.Grows t) (c : Services) : t.current c = s.current c := by
  rw [Store.current, Store.current, h.hasEnded]

theorem current_of_live (h : s.hasEnded c.provider.identity = false) : s.current c = c := by
  rw [current, h, if_neg (by simp)]

end

/-! ## What look-ups do to a store -/

section

variable {s : Store}

theorem Counts.reads {t : Store} (h : s.Counts t) : s.Reads t := by
  obtain ⟨hmodules, hservices, hended, hnext, hpayloads, hclasses, hmissing, hplaceholders⟩ := h
  obtain ⟨next, payloads, services, modules, classes, missing, placeholders, counters, accessed,
    calls, ended⟩ := s
  obtain ⟨next', _, _, _, _, _, _, counters', accessed', calls', _⟩ := t
  dsimp only at *
  subst hmodules hservices hended hpayloads hclasses hmissing hplaceholders
  refine ⟨⟨fun h => ?_, rfl, rfl, rfl, hnext, fun _ _ h => h, fun _ _ _ h => h, fun _ _ h => h,
    fun _ _ h => h⟩, rfl, rfl⟩
  exact
    { reader := h.reader, fragments := h.fragments, services := h.services, targets := h.targets
      payloads := h.payloads, classes := h.classes, missing := h.missing
      placeholders := h.placeholders
      identities := fun c hc => ⟨Nat.lt_of_lt_of_le (h.identities c hc).1 hnext,
        Nat.lt_of_lt_of_le (h.identities c hc).2 hnext⟩
      modules_lt := fun i c hi => Nat.lt_of_lt_of_le (h.modules_lt i c hi) hnext
      readers_lt := fun i c hi => Nat.lt_of_lt_of_le (h.readers_lt i c hi) hnext
      payloads_lt := fun i p hi => Nat.lt_of_lt_of_le (h.payloads_lt i p hi) hnext
      classes_lt := fun i id a hi => Nat.lt_of_lt_of_le (h.classes_lt i id a hi) hnext }

theorem Counts.tally (s : Store) (i : Identity) (change : Counters → Counters) :
    s.Counts (s.tally i change) :=
  ⟨rfl, rfl, rfl, Nat.le_refl _, rfl, rfl, rfl, rfl⟩

theorem Counts.fresh (s : Store) : s.Counts { s with nextIdentity := s.nextIdentity + 1 } :=
  ⟨rfl, rfl, rfl, Nat.le_succ _, rfl, rfl, rfl, rfl⟩

theorem Sound.reader_unique (h : s.Sound) {c d : Services} (hc : s.Knows c) (hd : s.Knows d)
    {f g : StoredFragment} (hf : f ∈ c.provider.storedFragments)
    (hg : g ∈ d.provider.storedFragments) (hi : f.identity = g.identity) : f = g ∧ c = d := by
  have hfg := h.fragments c hc d hd f hf g hg hi
  subst hfg
  exact ⟨rfl, Option.some.inj ((h.reader c hc f hf).symm.trans (h.reader d hd f hg))⟩

theorem get?_set_of_none {κ α : Type} [DecidableEq κ] {table : Table κ α} {key k : κ} {a v : α}
    (hnone : table.get? key = none) (h : table.get? k = some a) :
    (table.set key v).get? k = some a := by
  rw [Table.get?_set, if_neg]
  · exact h
  · rintro rfl
    cases hnone.symm.trans h

/-- A payload is kept once it is read. -/
theorem Reads.payload {c : Services} (hc : s.Knows c) {f : StoredFragment}
    (hf : f ∈ c.provider.storedFragments) {p : Payload} (hp : f.reading c = .ok p)
    (hnone : s.payloads.get? f.identity = none) :
    s.Reads { s with payloads := s.payloads.set f.identity p } := by
  refine ⟨⟨fun h => { h with payloads := ?_, payloads_lt := ?_ }, rfl, rfl, rfl, Nat.le_refl _,
    fun i q hq => get?_set_of_none hnone hq, fun _ _ _ h => h, fun _ _ h => h, fun _ _ h => h⟩, rfl, rfl⟩
  · intro d hd g hg q hq
    rw [Table.get?_set] at hq
    split at hq
    · rename_i hi
      obtain ⟨rfl, rfl⟩ := h.reader_unique hd hc hg hf hi
      exact Option.some.inj hq ▸ hp
    · exact h.payloads d hd g hg q hq
  · intro i q hq
    rw [Table.get?_set] at hq
    split at hq
    · rename_i hi
      exact hi ▸ h.readers_lt f.identity c (h.reader c hc f hf)
    · exact h.payloads_lt i q hq

theorem Reads.placeMissing {i : Identity} {id : ClassId} {n : UInt32} {m : MissingClass}
    (hm : m.anonymous = ⟨0, id, n⟩) (hnone : s.missing.get? (i, id, n) = none) :
    s.Reads { s with missing := s.missing.set (i, id, n) m } := by
  refine ⟨⟨fun h => { h with missing := ?_ }, rfl, rfl, rfl, Nat.le_refl _, fun _ _ h => h,
    fun _ _ _ h => h, fun key k hk => get?_set_of_none hnone hk, fun _ _ h => h⟩, rfl, rfl⟩
  intro j id' n' k hk
  rw [Table.get?_set] at hk
  split at hk
  · rename_i hkey
    obtain ⟨-, rfl, rfl⟩ := hkey
    exact Option.some.inj hk ▸ hm
  · exact h.missing j id' n' k hk

theorem Grows.placeholder {i : Identity} {d : QualName} {c : ClassDescriptor}
    (hc : c.anonymous = .ofDeclaration 0 d) (hnone : s.placeholders.get? (i, d) = none) :
    s.Grows { s with placeholders := s.placeholders.set (i, d) c } := by
  refine ⟨fun h => { h with placeholders := ?_ }, rfl, rfl, rfl, Nat.le_refl _, fun _ _ h => h,
    fun _ _ _ h => h, fun _ _ h => h, fun key k hk => get?_set_of_none hnone hk⟩
  intro j d' k hk
  rw [Table.get?_set] at hk
  split at hk
  · rename_i hkey
    obtain ⟨-, rfl⟩ := hkey
    exact Option.some.inj hk ▸ hc
  · exact h.placeholders j d' k hk

/-- The cell of a class that is not remembered can be written with what the class is. While its
provider is in use, that is what the library means. -/
theorem Grows.cell {c : Services} (hc : s.Knows c) {id : ClassId}
    {cell : Option (Option ClassDescriptor)}
    (hcell : ∀ answer, cell = some answer → s.hasEnded c.provider.identity = false →
      c.classOf id = .ok (answer.map ClassDescriptor.anonymous))
    (hnone : ∀ answer, ¬ s.Remembers c id answer) :
    s.Grows { s with classes := s.classes.set (c.identity, id) cell } := by
  refine ⟨fun h => { h with classes := ?_, classes_lt := ?_ }, rfl, rfl, rfl, Nat.le_refl _,
    fun _ _ h => h, fun d id' answer ha => ?_, fun _ _ h => h, fun _ _ h => h⟩
  · intro d hd hlive id' answer ha
    rw [Remembers, Table.get?_set] at ha
    split at ha
    · rename_i hkey
      obtain ⟨hi, rfl⟩ := Prod.mk.inj hkey
      obtain rfl := h.services d hd c hc hi
      exact hcell answer (Option.some.inj ha) hlive
    · exact h.classes d hd hlive id' answer ha
  · intro i id' a ha
    rw [Table.get?_set] at ha
    split at ha
    · rename_i hkey
      obtain ⟨rfl, -⟩ := Prod.mk.inj hkey
      exact (h.identities c hc).1
    · exact h.classes_lt i id' a ha
  · rw [Remembers, Table.get?_set, if_neg]
    · exact ha
    · intro hkey
      rw [Remembers, hkey] at ha
      exact hnone answer ha

end

end Store

theorem Module.knows_of_services? {s : Store} {m : Module} {c : Services}
    (h : m.services? s = some c) : s.Knows c :=
  ⟨m.identity, h⟩

end SymbolAtlas
