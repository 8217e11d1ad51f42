import SymbolAtlas.Proofs.Symbols.Evolution

namespace SymbolAtlas.Store

variable {s t : Store} {c d : Services}

/-- The services are known, and no others count in their counters. -/
structure Owns (s : Store) (c : Services) : Prop where
  knows : s.Knows c
  alone : ∀ d, s.Knows d → d.counters = c.counters → d = c

/-- The decoder calls that were made for parts that the services read. -/
def callsOf (s : Store) (c : Services) : List Identity :=
  s.decoderCalls.filter fun i => c.provider.storedFragments.any (·.identity == i)

def madeBy (c : Services) :
    (Identity × ClassId) × Option (Option ClassDescriptor) → Option ClassId
  | ((i, id), some (some _)) => if i = c.identity then some id else none
  | _ => none

def classIds (s : Store) (c : Services) : List ClassId :=
  s.classes.entries.filterMap (madeBy c)

/-- What `part` of the counters says is the `size` of something that the store holds. -/
def Agrees (part : Counters → Nat) (size : Store → Services → Nat) (s : Store) : Prop :=
  ∀ c, s.Owns c → part (s.countersOf c.counters) = size s c

/-- Counters that no services count in are at zero. -/
def Unused (s : Store) : Prop :=
  ∀ i, (∀ c, s.Knows c → c.counters ≠ i) → s.countersOf i = {}

structure Counted (s : Store) : Prop where
  unused : s.Unused
  packages : Agrees Counters.packagesDecoded (fun s c => (s.callsOf c).length) s
  classes : Agrees Counters.classesRead (fun s c => (s.classIds c).length) s
  missing : Agrees Counters.missingClasses missingCount s

theorem countersOf_tally (s : Store) (i : Identity) (change : Counters → Counters) (j : Identity) :
    (s.tally i change).countersOf j = if j = i then change (s.countersOf i) else s.countersOf j := by
  rw [countersOf, tally, Table.get?_set]
  split
  · rfl
  · rfl

theorem countersOf_congr (h : t.counters = s.counters) (i : Identity) :
    t.countersOf i = s.countersOf i := by
  rw [countersOf, countersOf, h]

theorem owns_congr (h : ∀ c, t.Knows c ↔ s.Knows c) : t.Owns c ↔ s.Owns c := by
  constructor
  · exact fun hc => ⟨(h c).1 hc.knows, fun d hd => hc.alone d ((h d).2 hd)⟩
  · exact fun hc => ⟨(h c).2 hc.knows, fun d hd => hc.alone d ((h d).1 hd)⟩

theorem Changes.owns (h : s.Changes t) (hc : s.Owns c) : t.Owns c :=
  (owns_congr fun _ => h.grows.knows_iff).2 hc

/-- A module that is loaded with counters that nothing uses owns them. -/
theorem Loads.owns {m : Module} (h : s.Loads m c t)
    (hunused : ∀ d, s.Knows d → d.counters ≠ c.counters) : t.Owns c where
  knows := Module.knows_of_services? h.services?_self
  alone := fun d hd heq => (h.knows_cases hd).resolve_right fun hd => hunused d hd heq

theorem Unused.tally (h : s.Unused) (hd : s.Knows d) (hknows : ∀ c, t.Knows c ↔ s.Knows c)
    {change : Counters → Counters} (hcounters : t.counters = (s.tally d.counters change).counters) :
    t.Unused := by
  intro i hi
  have hne : i ≠ d.counters := fun heq => hi d ((hknows d).2 hd) heq.symm
  rw [countersOf_congr hcounters, countersOf_tally, if_neg hne]
  exact h i fun c hc => hi c ((hknows c).2 hc)

theorem Unused.same (h : s.Unused) (hknows : ∀ c, s.Knows c → t.Knows c)
    (hcounters : t.counters = s.counters) : t.Unused := by
  intro i hi
  rw [countersOf_congr hcounters]
  exact h i fun c hc => hi c (hknows c hc)

section

variable {part : Counters → Nat} {size : Store → Services → Nat}

/-- A step that counts nothing and makes nothing. -/
theorem Agrees.same (h : Agrees part size s) (hknows : ∀ c, t.Knows c ↔ s.Knows c)
    (hcounters : t.counters = s.counters) (hsize : ∀ c, s.Knows c → size t c = size s c) :
    Agrees part size t := by
  intro c hc
  have hc := (owns_congr hknows).1 hc
  rw [countersOf_congr hcounters, hsize c hc.knows]
  exact h c hc

/-- A step that makes `n` things for the services `d`, and counts them. -/
theorem Agrees.tally (h : Agrees part size s) (hd : s.Knows d) (hknows : ∀ c, t.Knows c ↔ s.Knows c)
    {change : Counters → Counters} (hcounters : t.counters = (s.tally d.counters change).counters)
    (n : Nat) (hpart : ∀ x, part (change x) = part x + n) (hsize : size t d = size s d + n)
    (hothers : ∀ c, s.Knows c → c ≠ d → size t c = size s c) : Agrees part size t := by
  intro c hc
  have hc := (owns_congr hknows).1 hc
  rw [countersOf_congr hcounters, countersOf_tally]
  by_cases hcd : c = d
  · subst hcd
    rw [if_pos rfl, hpart, hsize, h c hc]
  · have hne : c.counters ≠ d.counters := fun heq => hcd (hc.alone d hd heq.symm).symm
    rw [if_neg hne, hothers c hc.knows hcd]
    exact h c hc

/-- A module that is loaded has made nothing, and nothing has counted in its own counters. -/
theorem Agrees.loaded (h : Agrees part size s) (hs : s.Sound) {m : Module} (hloads : s.Loads m d t)
    (hunused : s.Unused) (hpart : part {} = 0)
    (hnew : size t d = 0) (hsize : ∀ c, s.Knows c → size t c = size s c) : Agrees part size t := by
  intro c hc
  rw [countersOf_congr hloads.counters]
  have hkept {e : Services} (he : s.Knows e) : t.Knows e := (Step.loaded hloads).knows hs he
  rcases hloads.knows_cases hc.knows with rfl | hknown
  · rw [hunused _ fun e he heq => ?_, hpart, hnew]
    obtain rfl := hc.alone e (hkept he) heq
    exact Nat.not_lt.2 hloads.services_new.1 (hs.identities e he).1
  · rw [hsize c hknown]
    exact h c ⟨hknown, fun e he => hc.alone e (hkept he)⟩

end

/-! ## What is counted -/

theorem callsOf_congr (h : t.decoderCalls = s.decoderCalls) (c : Services) :
    t.callsOf c = s.callsOf c := by
  rw [callsOf, callsOf, h]

theorem mem_callsOf {i : Identity} :
    i ∈ s.callsOf c ↔ i ∈ s.decoderCalls ∧ ∃ f ∈ c.provider.storedFragments, f.identity = i := by
  simp [callsOf]

theorem callsOf_append {f : StoredFragment} (hf : f ∈ c.provider.storedFragments)
    (h : t.decoderCalls = s.decoderCalls ++ [f.identity]) :
    t.callsOf c = s.callsOf c ++ [f.identity] := by
  have hany : (c.provider.storedFragments.any fun g => g.identity == f.identity) = true :=
    List.any_eq_true.2 ⟨f, hf, by simp⟩
  rw [callsOf, h, List.filter_append, List.filter_singleton, hany]
  rfl

theorem callsOf_append_other {f : StoredFragment} (hs : s.Sound) (hc : s.Knows c) (hf : s.Holds d f)
    (hne : c ≠ d) (h : t.decoderCalls = s.decoderCalls ++ [f.identity]) :
    t.callsOf c = s.callsOf c := by
  have hany : (c.provider.storedFragments.any fun g => g.identity == f.identity) = false := by
    rw [List.any_eq_false]
    intro g hg heq
    exact hne (hs.reader_unique hc hf.knows hg hf.mem (beq_iff_eq.1 heq)).2
  rw [callsOf, h, List.filter_append, List.filter_singleton, hany]
  simp [callsOf]

theorem classIds_congr (h : t.classes = s.classes) (c : Services) : t.classIds c = s.classIds c := by
  rw [classIds, classIds, h]

/-- Writing the cell of a class that is not remembered takes no class from the table. -/
theorem classIds_setCell {id : ClassId} (htidy : s.Tidy) (hnone : s.Unasked d id)
    (cell : Option (Option ClassDescriptor)) (c : Services) :
    (d.setCell id cell s).classIds c =
      (madeBy c ((d.identity, id), cell)).toList ++ s.classIds c := by
  have hold : ∀ e ∈ s.classes.entries, e.1 = (d.identity, id) → madeBy c e = none := by
    intro e he hkey
    obtain ⟨key, value⟩ := e
    obtain rfl : key = (d.identity, id) := hkey
    have hget := htidy.classes.get?_of_mem he
    rcases value with _ | answer
    · rfl
    · exact absurd hget (hnone answer)
  have herased : (s.classes.erase (d.identity, id)).entries.filterMap (madeBy c) = s.classIds c := by
    rw [Table.erase, List.filterMap_filter, classIds]
    apply List.filterMap_congr
    intro e he
    by_cases hkey : e.1 = (d.identity, id)
    · simp [hkey, hold e he hkey]
    · simp [hkey]
  rw [classIds, Services.setCell, Table.set, List.filterMap_cons, herased]
  cases madeBy c ((d.identity, id), cell) <;> rfl

theorem missingCount_congr (h : t.missing = s.missing) (c : Services) :
    t.missingCount c = s.missingCount c := by
  rw [missingCount, missingCount, h]

theorem missingCount_missed {id : ClassId} {n : UInt32}
    (hnone : s.missing.get? (d.identity, id, n) = none) (c : Services) :
    (s.missed d id n).missingCount c =
      s.missingCount c + if d.identity = c.identity then 1 else 0 := by
  rw [missingCount, missed, Table.set_of_get?_none hnone, Table.count, List.countP_cons]
  simp [missingCount, Table.count]

/-! ## Every store -/

/-- A step that hands bytes to a decoder. -/
theorem Counted.decoded (h : s.Counted) (hs : s.Sound) (htidy : s.Tidy) {f : StoredFragment}
    (hf : s.Holds d f) (hknows : ∀ c, t.Knows c ↔ s.Knows c)
    (hcounters : t.counters = (s.countPackage f.counters).counters)
    (hcalls : t.decoderCalls = s.decoderCalls ++ [f.identity]) (hclasses : t.classes = s.classes)
    (hmissing : t.missing = s.missing) : t.Counted := by
  rw [countPackage, (htidy.assembled d hf.knows).counters f hf.mem] at hcounters
  refine ⟨h.unused.tally hf.knows hknows hcounters, ?_, ?_, ?_⟩
  · refine h.packages.tally hf.knows hknows hcounters 1 (fun _ => rfl) ?_ fun c hc hne => ?_
    · simp [callsOf_append hf.mem hcalls]
    · rw [callsOf_append_other hs hc hf hne hcalls]
  · exact h.classes.tally hf.knows hknows hcounters 0 (fun _ => rfl)
      (by rw [classIds_congr hclasses, Nat.add_zero]) fun c _ _ => by rw [classIds_congr hclasses]
  · exact h.missing.tally hf.knows hknows hcounters 0 (fun _ => rfl)
      (missingCount_congr hmissing d) fun c _ _ => missingCount_congr hmissing c

/-- A step that counts nothing and makes nothing. -/
theorem Counted.same (h : s.Counted) (hknows : ∀ c, t.Knows c ↔ s.Knows c)
    (hcounters : t.counters = s.counters) (hcalls : t.decoderCalls = s.decoderCalls)
    (hclasses : ∀ c, t.classIds c = s.classIds c) (hmissing : t.missing = s.missing) : t.Counted where
  unused := h.unused.same (fun c => (hknows c).2) hcounters
  packages := h.packages.same hknows hcounters fun c _ => by rw [callsOf_congr hcalls]
  classes := h.classes.same hknows hcounters fun c _ => by rw [hclasses]
  missing := h.missing.same hknows hcounters fun c _ => missingCount_congr hmissing c

theorem Counted.missed (h : s.Counted) (hs : s.Sound) (hd : s.Knows d) {id : ClassId} {n : UInt32}
    (hnone : s.missing.get? (d.identity, id, n) = none) : (s.missed d id n).Counted := by
  have hknows (c : Services) : (s.missed d id n).Knows c ↔ s.Knows c := .rfl
  have hcounters : (s.missed d id n).counters = (s.countMissing d.counters).counters := rfl
  refine ⟨h.unused.tally hd hknows hcounters, ?_, ?_, ?_⟩
  · exact h.packages.tally hd hknows hcounters 0 (fun _ => rfl) rfl fun _ _ _ => rfl
  · exact h.classes.tally hd hknows hcounters 0 (fun _ => rfl) rfl fun _ _ _ => rfl
  · refine h.missing.tally hd hknows hcounters 1 (fun _ => rfl) ?_ fun c hc hne => ?_
    · rw [missingCount_missed hnone, if_pos rfl]
    · rw [missingCount_missed hnone, if_neg fun heq => hne (hs.services c hc d hd heq.symm),
        Nat.add_zero]

theorem Counted.made (h : s.Counted) (hs : s.Sound) (htidy : s.Tidy) (hd : s.Knows d) {id : ClassId}
    (hnone : s.Unasked d id) (record : ClassRecord) (annotations : List Annotation) :
    (s.made d id record annotations).Counted := by
  have hknows (c : Services) : (s.made d id record annotations).Knows c ↔ s.Knows c := .rfl
  have hcounters : (s.made d id record annotations).counters = (s.countClass d.counters).counters := rfl
  have hids := classIds_setCell htidy hnone
    (some (some (.ofRecord s.nextIdentity id record annotations)))
  refine ⟨h.unused.tally hd hknows hcounters, ?_, ?_, ?_⟩
  · exact h.packages.tally hd hknows hcounters 0 (fun _ => rfl) rfl fun _ _ _ => rfl
  · refine h.classes.tally hd hknows hcounters 1 (fun _ => rfl) ?_ fun c hc hne => ?_
    · refine (congrArg List.length (hids d)).trans ?_
      simp [madeBy, Nat.add_comm]
    · refine (congrArg List.length (hids c)).trans ?_
      have hne : d.identity ≠ c.identity := fun heq => hne (hs.services c hc d hd heq.symm)
      simp [madeBy, hne]
  · exact h.missing.tally hd hknows hcounters 0 (fun _ => rfl) rfl fun _ _ _ => rfl

theorem Counted.loaded (h : s.Counted) (hs : s.Sound) (htidy : s.Tidy) {m : Module}
    (hloads : s.Loads m d t) : t.Counted := by
  have hcalls : t.callsOf d = [] := by
    rw [callsOf_congr hloads.decoderCalls, List.eq_nil_iff_forall_not_mem]
    intro i hi
    obtain ⟨hi, f, hf, rfl⟩ := mem_callsOf.1 hi
    exact Nat.not_lt.2 (hloads.stored_new f hf).1 (htidy.calls_lt _ hi)
  have hclasses : t.classIds d = [] := by
    rw [classIds_congr hloads.classes, classIds, List.filterMap_eq_nil_iff]
    rintro ⟨⟨i, id⟩, value⟩ he
    have hlt := hs.classes_lt i id value (htidy.classes.get?_of_mem he)
    have hne : i ≠ d.identity := fun heq => Nat.not_lt.2 hloads.services_new.1 (heq ▸ hlt)
    rcases value with _ | _ | _ <;> simp [madeBy, hne]
  have hmissing : t.missingCount d = 0 := by
    rw [missingCount_congr hloads.missing, missingCount, Table.count, List.countP_eq_zero]
    rintro ⟨⟨i, id, n⟩, value⟩ he heq
    have hlt := htidy.missing_lt i id n value (htidy.missing.get?_of_mem he)
    exact Nat.not_lt.2 hloads.services_new.1 ((beq_iff_eq.1 heq) ▸ hlt)
  refine ⟨h.unused.same (fun c hc => (Step.loaded hloads).knows hs hc) hloads.counters, ?_, ?_, ?_⟩
  · exact h.packages.loaded hs hloads h.unused rfl (by simp [hcalls])
      fun c _ => by rw [callsOf_congr hloads.decoderCalls]
  · exact h.classes.loaded hs hloads h.unused rfl (by simp [hclasses])
      fun c _ => by rw [classIds_congr hloads.classes]
  · exact h.missing.loaded hs hloads h.unused rfl hmissing
      fun c _ => missingCount_congr hloads.missing c

theorem Counted.change (h : s.Counted) (hs : s.Sound) (htidy : s.Tidy) (hchange : s.Change t) :
    t.Counted := by
  have hknows (c : Services) : t.Knows c ↔ s.Knows c := hchange.grows.knows_iff
  cases hchange with
  | refused hf => exact h.decoded hs htidy hf hknows rfl rfl rfl rfl
  | populated hf => exact h.decoded hs htidy hf hknows rfl rfl rfl rfl
  | missed hc hnone => exact h.missed hs hc hnone
  | placed => exact h.same hknows rfl rfl (fun _ => rfl) rfl
  | opened _ hnone => exact h.same hknows rfl rfl (classIds_setCell htidy hnone none) rfl
  | absent _ hnone => exact h.same hknows rfl rfl (classIds_setCell htidy hnone (some none)) rfl
  | made hc hnone => exact h.made hs htidy hc hnone _ _

theorem Counted.step (h : s.Counted) (hs : s.Sound) (htidy : s.Tidy) (hstep : s.Step t) :
    t.Counted := by
  cases hstep with
  | changed hchange => exact h.change hs htidy hchange
  | numbered hnumbers =>
    obtain ⟨n, -, rfl⟩ := hnumbers
    exact h.same (fun _ => .rfl) rfl rfl (fun _ => rfl) rfl
  | loaded hloads => exact h.loaded hs htidy hloads
  | @shared i c hi hc hnone =>
    have hknows (d : Services) : ({ s with modules := s.modules.set i c } : Store).Knows d ↔ s.Knows d :=
      ⟨knows_of_shared hc, (Step.shared hi hc hnone).knows hs⟩
    exact h.same hknows rfl rfl (fun _ => rfl) rfl
  | ended => exact h.same (fun _ => .rfl) rfl rfl (fun _ => rfl) rfl

theorem counted_start : Counted {} where
  unused := fun _ _ => rfl
  packages := fun _ ⟨⟨_, h⟩, _⟩ => by cases h
  classes := fun _ ⟨⟨_, h⟩, _⟩ => by cases h
  missing := fun _ ⟨⟨_, h⟩, _⟩ => by cases h

/-- **Counters agree with what the store holds.** -/
theorem Reachable.counted (h : s.Reachable) : s.Counted :=
  h.induct counted_start fun _ _ hs hstep ih => ih.step hs.sound hs.tidy hstep

end SymbolAtlas.Store
