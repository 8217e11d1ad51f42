import SymbolAtlas.Proofs.Symbols.Change
import SymbolAtlas.Proofs.Symbols.Load

namespace SymbolAtlas

open Query Relation

namespace Store

variable {s t : Store} {c : Services}

/-- What can happen next to a store. -/
inductive Step (s : Store) : Store → Prop
  | changed {t : Store} (h : s.Change t) : s.Step t
  | numbered {t : Store} (h : s.Numbers t) : s.Step t
  | loaded {m : Module} {c : Services} {t : Store} (h : s.Loads m c t) : s.Step t
  /-- A module without services gets those of another one. -/
  | shared {i : Identity} {c : Services} (hi : i < s.nextIdentity) (hc : s.Knows c)
      (hnone : s.modules.get? i = none) : s.Step { s with modules := s.modules.set i c }
  | ended (ended : List Identity) : s.Step { s with ended := ended ++ s.ended }

def Steps : Store → Store → Prop :=
  ReflTransGen Step

def Reachable (s : Store) : Prop :=
  Steps {} s

theorem Reachable.steps (h : s.Reachable) (ht : s.Steps t) : t.Reachable :=
  ReflTransGen.trans h ht

theorem Changes.steps (h : s.Changes t) : s.Steps t :=
  ReflTransGen.mono (fun _ _ => Step.changed) _ _ h

/-! ## Services -/

theorem knows_of_shared {i : Identity} {d : Services} (hc : s.Knows c)
    (h : ({ s with modules := s.modules.set i c } : Store).Knows d) : s.Knows d := by
  obtain ⟨j, hj⟩ := h
  rw [Table.get?_set] at hj
  split at hj
  · exact Option.some.inj hj ▸ hc
  · exact ⟨j, hj⟩

/-- Services stay known. -/
theorem Step.knows (h : s.Step t) (hs : s.Sound) (hc : s.Knows c) : t.Knows c := by
  obtain ⟨i, hi⟩ := hc
  cases h with
  | changed h => exact h.grows.knows_iff.2 ⟨i, hi⟩
  | numbered h => exact h.counts.reads.knows_iff.2 ⟨i, hi⟩
  | loaded h =>
    refine ⟨i, ?_⟩
    have hlt := Nat.lt_of_lt_of_le (hs.modules_lt i c hi) h.module_new.1
    rw [h.modules, Table.get?_set, if_neg (Nat.ne_of_lt hlt), hi]
  | @shared j d _ _ hnone => exact ⟨i, get?_set_of_none hnone hi⟩
  | ended => exact ⟨i, hi⟩

/-- Services that become known are those of a module that is loaded. -/
theorem Step.knows_cases (h : s.Step t) (hc : t.Knows c) : s.Knows c ∨ ∃ m, s.Loads m c t := by
  cases h with
  | changed h => exact .inl (h.grows.knows_iff.1 hc)
  | numbered h => exact .inl (h.counts.reads.knows_iff.1 hc)
  | @loaded m _ _ h =>
    rcases h.knows_cases hc with rfl | hc
    · exact .inr ⟨m, h⟩
    · exact .inl hc
  | shared _ hd => exact .inl (knows_of_shared hd hc)
  | ended => exact .inl hc

theorem Sound.shared (h : s.Sound) {i : Identity} (hi : i < s.nextIdentity) (hc : s.Knows c) :
    ({ s with modules := s.modules.set i c } : Store).Sound :=
  { h with
    reader := fun d hd => h.reader d (knows_of_shared hc hd)
    fragments := fun d hd e he => h.fragments d (knows_of_shared hc hd) e (knows_of_shared hc he)
    services := fun d hd e he => h.services d (knows_of_shared hc hd) e (knows_of_shared hc he)
    targets := fun d hd => h.targets d (knows_of_shared hc hd)
    payloads := fun d hd => h.payloads d (knows_of_shared hc hd)
    classes := fun d hd => h.classes d (knows_of_shared hc hd)
    identities := fun d hd => h.identities d (knows_of_shared hc hd)
    modules_lt := by
      intro j d hj
      rw [Table.get?_set] at hj
      split at hj
      · rename_i heq
        exact heq ▸ hi
      · exact h.modules_lt j d hj }

theorem Sound.ended (h : s.Sound) (ended : List Identity) :
    ({ s with ended := ended ++ s.ended } : Store).Sound where
  __ := h
  classes := by
    intro c hc hlive id answer ha
    refine h.classes c hc ?_ id answer ha
    simp only [hasEnded, List.contains_eq_mem, List.mem_append, decide_eq_false_iff_not, not_or] at hlive ⊢
    exact hlive.2

theorem Step.payload (h : s.Step t) {i : Identity} {p : Payload}
    (hp : s.payloads.get? i = some p) : t.payloads.get? i = some p := by
  cases h with
  | changed h => exact h.grows.payloads i p hp
  | numbered h => exact h.counts.reads.payloads i p hp
  | loaded h => rw [h.payloads, hp]
  | shared => exact hp
  | ended => exact hp

theorem Step.remembers (h : s.Step t) {id : ClassId} {answer : Option ClassDescriptor}
    (hanswer : s.Remembers c id answer) : t.Remembers c id answer := by
  cases h with
  | changed h => exact h.grows.classes c id answer hanswer
  | numbered h => exact h.counts.reads.classes c id answer hanswer
  | loaded h => rwa [Remembers, h.classes]
  | shared => exact hanswer
  | ended => exact hanswer

theorem Step.sound (h : s.Step t) (hs : s.Sound) : t.Sound := by
  cases h with
  | changed h => exact h.grows.sound hs
  | numbered h => exact h.counts.reads.sound hs
  | loaded h => exact h.sound hs
  | shared hi hc => exact hs.shared hi hc
  | ended ended => exact hs.ended ended

theorem sound_start : Sound {} where
  reader := fun _ ⟨_, h⟩ => by cases h
  fragments := fun _ ⟨_, h⟩ => by cases h
  services := fun _ ⟨_, h⟩ => by cases h
  targets := fun _ ⟨_, h⟩ => by cases h
  payloads := fun _ ⟨_, h⟩ => by cases h
  classes := fun _ ⟨_, h⟩ => by cases h
  missing := fun _ _ _ _ h => by cases h
  placeholders := fun _ _ _ h => by cases h
  identities := fun _ ⟨_, h⟩ => by cases h
  modules_lt := fun _ _ h => by cases h
  readers_lt := fun _ _ h => by cases h
  payloads_lt := fun _ _ h => by cases h
  classes_lt := fun _ _ _ h => by cases h

theorem Steps.sound (h : s.Steps t) (hs : s.Sound) : t.Sound := by
  induction h with
  | refl => exact hs
  | tail _ hstep ih => exact hstep.sound ih

theorem Reachable.sound (h : s.Reachable) : s.Sound :=
  Steps.sound h sound_start

/-- A payload that is kept stays. -/
theorem Steps.payload (h : s.Steps t) {i : Identity} {p : Payload}
    (hp : s.payloads.get? i = some p) : t.payloads.get? i = some p := by
  induction h with
  | refl => exact hp
  | tail _ hstep ih => exact hstep.payload ih

/-- A class that is remembered is never forgotten. -/
theorem Steps.remembers (h : s.Steps t) {id : ClassId} {answer : Option ClassDescriptor}
    (hanswer : s.Remembers c id answer) : t.Remembers c id answer := by
  induction h with
  | refl => exact hanswer
  | tail _ hstep ih => exact hstep.remembers ih

theorem Steps.knows (h : s.Steps t) (hs : s.Sound) (hc : s.Knows c) : t.Knows c := by
  induction h with
  | refl => exact hc
  | tail hsteps hstep ih => exact hstep.knows (Steps.sound hsteps hs) ih

/-- What holds of the empty store and is kept by every step holds of every store. -/
theorem Reachable.induct {P : Store → Prop} (h : s.Reachable) (start : P {})
    (step : ∀ s t, s.Reachable → s.Step t → P s → P t) : P s := by
  induction h with
  | refl => exact start
  | tail hsteps hstep ih => exact step _ _ hsteps hstep ih

/-! ## Tables -/

/-- Services are assembled by loading, tables have every key once, and nothing is newer than the
store. -/
structure Tidy (s : Store) : Prop where
  assembled : ∀ c, s.Knows c → c.Assembled
  payloads : s.payloads.Distinct
  classes : s.classes.Distinct
  missing : s.missing.Distinct
  missing_lt : ∀ i id n m, s.missing.get? (i, id, n) = some m → i < s.nextIdentity
  calls_lt : ∀ i ∈ s.decoderCalls, i < s.nextIdentity

theorem Holds.lt {f : StoredFragment} (h : s.Holds c f) (hs : s.Sound) :
    f.identity < s.nextIdentity :=
  hs.readers_lt _ c (hs.reader c h.knows f h.mem)

theorem calls_lt_append {n i : Identity} {calls : List Identity} (h : ∀ j ∈ calls, j < n)
    (hi : i < n) : ∀ j ∈ calls ++ [i], j < n := by
  intro j hj
  rcases List.mem_append.1 hj with hj | hj
  · exact h j hj
  · exact List.mem_singleton.1 hj ▸ hi

theorem Tidy.step (h : s.Tidy) (hs : s.Sound) (hstep : s.Step t) : t.Tidy := by
  have hassembled : ∀ c, t.Knows c → c.Assembled := by
    intro c hc
    rcases hstep.knows_cases hc with hc | ⟨m, hloads⟩
    · exact h.assembled c hc
    · exact hloads.assembled
  cases hstep with
  | changed hchange =>
    cases hchange with
    | refused hf =>
      exact ⟨hassembled, h.payloads, h.classes, h.missing, h.missing_lt,
        calls_lt_append h.calls_lt (hf.lt hs)⟩
    | populated hf =>
      exact ⟨hassembled, h.payloads.set _ _, h.classes, h.missing, h.missing_lt,
        calls_lt_append h.calls_lt (hf.lt hs)⟩
    | @missed c hc id n =>
      refine ⟨hassembled, h.payloads, h.classes, h.missing.set _ _, ?_,
        fun i hi => Nat.lt_succ_of_lt (h.calls_lt i hi)⟩
      intro i id' n' m hm
      rw [missed, Table.get?_set] at hm
      split at hm
      · rename_i hkey
        exact (Prod.mk.inj hkey).1 ▸ Nat.lt_succ_of_lt (hs.identities c hc).1
      · exact Nat.lt_succ_of_lt (h.missing_lt i id' n' m hm)
    | placed =>
      exact ⟨hassembled, h.payloads, h.classes, h.missing,
        fun i id n m hm => Nat.lt_succ_of_lt (h.missing_lt i id n m hm),
        fun i hi => Nat.lt_succ_of_lt (h.calls_lt i hi)⟩
    | opened | absent =>
      exact ⟨hassembled, h.payloads, h.classes.set _ _, h.missing, h.missing_lt, h.calls_lt⟩
    | made =>
      exact ⟨hassembled, h.payloads, h.classes.set _ _, h.missing,
        fun i id n m hm => Nat.lt_succ_of_lt (h.missing_lt i id n m hm),
        fun i hi => Nat.lt_succ_of_lt (h.calls_lt i hi)⟩
  | numbered hnumbers =>
    obtain ⟨n, hn, rfl⟩ := hnumbers
    exact ⟨hassembled, h.payloads, h.classes, h.missing,
      fun i id k m hm => Nat.lt_of_lt_of_le (h.missing_lt i id k m hm) hn,
      fun i hi => Nat.lt_of_lt_of_le (h.calls_lt i hi) hn⟩
  | loaded hloads =>
    refine ⟨hassembled, ?_, ?_, ?_, ?_, ?_⟩
    · rw [hloads.payloads]
      exact h.payloads
    · rw [hloads.classes]
      exact h.classes
    · rw [hloads.missing]
      exact h.missing
    · intro i id n m hm
      rw [hloads.missing] at hm
      exact Nat.lt_of_lt_of_le (h.missing_lt i id n m hm) hloads.nextIdentity
    · intro i hi
      rw [hloads.decoderCalls] at hi
      exact Nat.lt_of_lt_of_le (h.calls_lt i hi) hloads.nextIdentity
  | shared => exact ⟨hassembled, h.payloads, h.classes, h.missing, h.missing_lt, h.calls_lt⟩
  | ended => exact ⟨hassembled, h.payloads, h.classes, h.missing, h.missing_lt, h.calls_lt⟩

theorem tidy_start : Tidy {} where
  assembled := fun _ ⟨_, h⟩ => by cases h
  payloads := List.nodup_nil
  classes := List.nodup_nil
  missing := List.nodup_nil
  missing_lt := fun _ _ _ _ h => by cases h
  calls_lt := fun _ h => by cases h

theorem Reachable.tidy (h : s.Reachable) : s.Tidy :=
  h.induct tidy_start fun _ _ hs hstep ih => ih.step hs.sound hstep

end Store

end SymbolAtlas
