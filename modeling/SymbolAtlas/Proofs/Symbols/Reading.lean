import Mathlib.Data.List.Nodup
import SymbolAtlas.Proofs.Symbols.Counting
import SymbolAtlas.Proofs.Symbols.Session

/-!
# Parts are read once

A part is populated with what its bytes decode to, once, and is then never decoded again. The reading
of a part is reported in the same step in which the part is populated, so the reports are the
populated parts in their order.

* `Store.populatedParts`: the parts that are populated, the first one first;
* `Store.Logged`: reports and decoder calls agree with them;
* `Session.Reachable.readsOnce`: what is so of the parts of a module in every session.
-/

namespace SymbolAtlas

open Query Relation

namespace Store

variable {s t : Store} {c d : Services} {f g : StoredFragment}

def partOf? (s : Store) (i : Identity) : Option StoredFragment := do
  (← s.services.get? i).provider.storedFragments.find? (·.identity == i)

def populatedParts (s : Store) : List StoredFragment :=
  (s.payloads.entries.map (·.1)).reverse.filterMap s.partOf?

theorem identity_of_partOf? {i : Identity} (h : s.partOf? i = some f) : f.identity = i := by
  obtain ⟨c, -, hf⟩ := Option.bind_eq_some_iff.1 h
  simpa using List.find?_some hf

theorem partOf?_of_holds (hs : s.Sound) (hf : s.Holds c f) : s.partOf? f.identity = some f := by
  have hreader := hs.reader c hf.knows f hf.mem
  cases hfound : c.provider.storedFragments.find? (·.identity == f.identity) with
  | none => exact absurd (beq_self_eq_true f.identity) (List.find?_eq_none.1 hfound f hf.mem)
  | some g =>
    have hg := List.mem_of_find?_eq_some hfound
    have hi : g.identity = f.identity := by simpa using List.find?_some hfound
    obtain rfl := hs.fragments c hf.knows c hf.knows g hg f hf.mem hi
    rw [partOf?, hreader]
    exact hfound

theorem isPopulated_iff : s.isPopulated f = true ↔ f.identity ∈ s.payloads.entries.map (·.1) := by
  rw [isPopulated]
  constructor
  · intro h
    obtain ⟨p, hp⟩ := Option.isSome_iff_exists.1 h
    exact List.mem_map.2 ⟨_, Table.mem_entries_of_get? hp, rfl⟩
  · intro h
    obtain ⟨e, he, hi⟩ := List.mem_map.1 h
    cases hget : s.payloads.get? f.identity with
    | none =>
      have := List.lookup_eq_none_iff.1 hget e he
      simp [hi] at this
    | some p => rfl

theorem mem_populatedParts (hs : s.Sound) (hf : s.Holds c f) :
    f ∈ s.populatedParts ↔ s.isPopulated f = true := by
  rw [isPopulated_iff, populatedParts, List.mem_filterMap]
  constructor
  · rintro ⟨i, hi, hpart⟩
    exact identity_of_partOf? hpart ▸ List.mem_reverse.1 hi
  · exact fun h => ⟨f.identity, List.mem_reverse.2 h, partOf?_of_holds hs hf⟩

theorem nodup_populatedParts (h : s.Tidy) : s.populatedParts.Nodup :=
  (List.nodup_reverse.2 h.payloads).filterMap fun _ _ _ hi hj =>
    (identity_of_partOf? hi).symm.trans (identity_of_partOf? hj)

theorem populatedParts_congr (hpayloads : t.payloads = s.payloads)
    (hservices : t.services = s.services) : t.populatedParts = s.populatedParts := by
  have hparts : t.partOf? = s.partOf? := funext fun i => by rw [partOf?, partOf?, hservices]
  rw [populatedParts, populatedParts, hpayloads, hparts]

/-- A part that is populated comes last. -/
theorem populatedParts_populated (hs : s.Sound) (hf : s.Holds c f)
    (hnone : s.payloads.get? f.identity = none) (p : Payload) :
    (s.populated f p).populatedParts = s.populatedParts ++ [f] := by
  have hentries : (s.populated f p).payloads.entries = (f.identity, p) :: s.payloads.entries :=
    congrArg Table.entries (Table.set_of_get?_none hnone p)
  have hpart : (s.populated f p).partOf? = s.partOf? := rfl
  rw [populatedParts, hentries, hpart, List.map_cons, List.reverse_cons, List.filterMap_append,
    List.filterMap_cons, partOf?_of_holds hs hf]
  rfl

theorem populatedParts_loaded (hs : s.Sound) (htidy : s.Tidy) {m : Module}
    (hloads : s.Loads m c t) : t.populatedParts = s.populatedParts := by
  rw [populatedParts, populatedParts, hloads.payloads]
  apply List.filterMap_congr
  intro i hi
  obtain ⟨⟨_, p⟩, he, rfl⟩ := List.mem_map.1 (List.mem_reverse.1 hi)
  have hlt := hs.payloads_lt _ p (htidy.payloads.get?_of_mem he)
  rw [partOf?, partOf?, hloads.others _ fun f hf heq => ?_]
  exact Nat.not_lt.2 (hloads.stored_new f hf).1 (heq ▸ hlt)

/-- A step populates one part or none. -/
theorem Step.populatedParts (h : s.Step t) (hs : s.Sound) (htidy : s.Tidy) :
    ∃ new, t.populatedParts = s.populatedParts ++ new := by
  cases h with
  | changed h =>
    cases h with
    | populated hf hnone => exact ⟨_, populatedParts_populated hs hf hnone _⟩
    | refused | missed | placed | opened | absent | made =>
      exact ⟨[], by rw [List.append_nil]; exact populatedParts_congr rfl rfl⟩
  | numbered h =>
    obtain ⟨n, -, rfl⟩ := h
    exact ⟨[], by rw [List.append_nil]; exact populatedParts_congr rfl rfl⟩
  | loaded h => exact ⟨[], by rw [List.append_nil]; exact populatedParts_loaded hs htidy h⟩
  | shared | ended => exact ⟨[], by rw [List.append_nil]; exact populatedParts_congr rfl rfl⟩

/-! ## Reports and decoder calls -/

/-- Reports and decoder calls agree with what is populated. -/
structure Logged (s : Store) : Prop where
  accessed : s.accessed = (s.populatedParts.filter (·.reports)).map (·.package)
  /-- A part that can be read was decoded when it was populated, and at no other time. -/
  calls : ∀ c f p, s.Holds c f → f.reading c = .ok p →
    s.decoderCalls.count f.identity = if s.isPopulated f then 1 else 0

theorem isPopulated_congr (h : t.payloads = s.payloads) (f : StoredFragment) :
    t.isPopulated f = s.isPopulated f := by
  rw [isPopulated, isPopulated, h]

theorem isPopulated_populated (s : Store) (f g : StoredFragment) (p : Payload) :
    (s.populated g p).isPopulated f = (f.identity == g.identity || s.isPopulated f) := by
  rw [isPopulated, populated, Table.get?_set]
  by_cases hi : f.identity = g.identity
  · simp [hi]
  · simp [hi, isPopulated]

/-- A step that reads nothing. -/
theorem Logged.same (h : s.Logged) (hparts : t.populatedParts = s.populatedParts)
    (haccessed : t.accessed = s.accessed) (hcalls : t.decoderCalls = s.decoderCalls)
    (hpayloads : t.payloads = s.payloads) (hholds : ∀ c f, t.Holds c f → s.Holds c f) : t.Logged where
  accessed := by rw [haccessed, hparts, h.accessed]
  calls := by
    intro c f p hf hp
    rw [hcalls, isPopulated_congr hpayloads]
    exact h.calls c f p (hholds c f hf) hp

/-- Bytes that are refused are never those of a part that can be read. -/
theorem Logged.refused (h : s.Logged) (hs : s.Sound) (hg : s.Holds d g) {e : LoadError}
    (he : g.reading d = .error e) : (s.decoded g).Logged where
  accessed := h.accessed
  calls := by
    intro c f p hf hp
    have hf : s.Holds c f := ⟨hf.knows, hf.mem⟩
    have hne : f.identity ≠ g.identity := by
      intro hi
      obtain ⟨rfl, rfl⟩ := hs.reader_unique hf.knows hg.knows hf.mem hg.mem hi
      cases hp.symm.trans he
    change (s.decoderCalls ++ [g.identity]).count f.identity = _
    rw [List.count_append, List.count_singleton, if_neg (by simpa using hne.symm)]
    exact h.calls c f p hf hp

theorem Logged.populated (h : s.Logged) (hs : s.Sound) (hg : s.Holds d g)
    (hnone : s.payloads.get? g.identity = none) (p : Payload) : (s.populated g p).Logged where
  accessed := by
    rw [populatedParts_populated hs hg hnone, List.filter_append, List.map_append, ← h.accessed]
    change (if g.reports then s.accessed ++ [g.package] else s.accessed) = _
    cases hreports : g.reports <;> simp [hreports]
  calls := by
    intro c f q hf hq
    have hf : s.Holds c f := ⟨hf.knows, hf.mem⟩
    change (s.decoderCalls ++ [g.identity]).count f.identity = _
    rw [isPopulated_populated, List.count_append, List.count_singleton, h.calls c f q hf hq]
    by_cases hi : f.identity = g.identity
    · have hnot : s.isPopulated f = false := by rw [isPopulated, hi, hnone]; rfl
      simp [hi, hnot]
    · simp [hi, Ne.symm hi]

theorem Logged.loaded (h : s.Logged) (hs : s.Sound) (htidy : s.Tidy) {m : Module}
    (hloads : s.Loads m d t) : t.Logged where
  accessed := by rw [hloads.accessed, populatedParts_loaded hs htidy hloads, h.accessed]
  calls := by
    intro c f p hf hp
    rw [hloads.decoderCalls, isPopulated_congr hloads.payloads]
    rcases hloads.knows_cases hf.knows with rfl | hc
    · have hnew := (hloads.stored_new f hf.mem).1
      have hcalls : f.identity ∉ s.decoderCalls := fun hi => Nat.not_lt.2 hnew (htidy.calls_lt _ hi)
      have hnot : s.isPopulated f = false := by
        rw [Bool.eq_false_iff]
        intro hpopulated
        obtain ⟨q, hq⟩ := Option.isSome_iff_exists.1 hpopulated
        exact Nat.not_lt.2 hnew (hs.payloads_lt _ q hq)
      simp [hnot, List.count_eq_zero_of_not_mem hcalls]
    · exact h.calls c f p ⟨hc, hf.mem⟩ hp

theorem Logged.step (h : s.Logged) (hs : s.Sound) (htidy : s.Tidy) (hstep : s.Step t) :
    t.Logged := by
  cases hstep with
  | changed hchange =>
    cases hchange with
    | refused hf _ he => exact h.refused hs hf he
    | populated hf hnone => exact h.populated hs hf hnone _
    | missed | placed | opened | absent | made =>
      exact h.same (populatedParts_congr rfl rfl) rfl rfl rfl fun c f hf => ⟨hf.knows, hf.mem⟩
  | numbered hnumbers =>
    obtain ⟨n, -, rfl⟩ := hnumbers
    exact h.same (populatedParts_congr rfl rfl) rfl rfl rfl fun c f hf => ⟨hf.knows, hf.mem⟩
  | loaded hloads => exact h.loaded hs htidy hloads
  | shared _ hc =>
    exact h.same (populatedParts_congr rfl rfl) rfl rfl rfl
      fun c f hf => ⟨knows_of_shared hc hf.knows, hf.mem⟩
  | ended =>
    exact h.same (populatedParts_congr rfl rfl) rfl rfl rfl fun c f hf => ⟨hf.knows, hf.mem⟩

theorem logged_start : Logged {} where
  accessed := rfl
  calls := fun _ _ _ ⟨⟨_, h⟩, _⟩ => by cases h

theorem Reachable.logged (h : s.Reachable) : s.Logged :=
  h.induct logged_start fun _ _ hs hstep ih => ih.step hs.sound hs.tidy hstep

theorem Reachable.decoded_once (h : s.Reachable) (hf : s.Holds c f) (hpopulated : s.isPopulated f = true) :
    s.decoderCalls.count f.identity = 1 := by
  obtain ⟨p, hp⟩ := Option.isSome_iff_exists.1 hpopulated
  rw [h.logged.calls c f p hf (h.sound.payloads c hf.knows f hf.mem p hp), if_pos hpopulated]

/-- Where all parts of a module are populated, its decoder calls are one for each of them. -/
theorem Reachable.callsOf_perm (h : s.Reachable) (hc : s.Knows c)
    (hall : ∀ f ∈ c.provider.storedFragments, s.isPopulated f = true) :
    (s.callsOf c).Perm (c.provider.storedFragments.map (·.identity)) := by
  have honce {f : StoredFragment} (hf : f ∈ c.provider.storedFragments) :
      s.decoderCalls.count f.identity = 1 := h.decoded_once ⟨hc, hf⟩ (hall f hf)
  have hnodup : (s.callsOf c).Nodup := by
    refine List.nodup_iff_count_le_one.2 fun i => ?_
    by_cases hi : i ∈ s.callsOf c
    · obtain ⟨-, f, hf, rfl⟩ := mem_callsOf.1 hi
      exact honce hf ▸ List.filter_sublist.count_le f.identity
    · exact List.count_eq_zero.2 hi ▸ Nat.zero_le 1
  refine (List.perm_ext_iff_of_nodup hnodup (h.tidy.assembled c hc).distinct).2 fun i => ?_
  rw [mem_callsOf, List.mem_map]
  refine and_iff_right_of_imp ?_
  rintro ⟨f, hf, rfl⟩
  exact List.count_pos_iff.1 ((honce hf).symm ▸ Nat.one_pos)

/-- Parts are populated one after the other, and stay populated. -/
theorem Steps.populatedParts (h : s.Steps t) (hs : s.Reachable) :
    s.populatedParts <+: t.populatedParts := by
  induction h with
  | refl => exact List.prefix_refl _
  | tail hsteps hstep ih =>
    have hu := hs.steps hsteps
    obtain ⟨new, hnew⟩ := hstep.populatedParts hu.sound hu.tidy
    rw [hnew]
    exact ih.trans (List.prefix_append _ _)

end Store

/-! ## In sessions -/

namespace Session

variable {S T : Session} {c : Services}

/-- What is so of the parts that the services of a module read, with the decoder of the binary format
and with counters of their own. -/
structure ReadsOnce (S : Session) (c : Services) : Prop where
  /-- A populated part holds what the library's bytes for it decode to: a payload of the part's
  package, in a version that the module may read. -/
  holds : ∀ f ∈ c.provider.storedFragments, ∀ p, S.store.payloads.get? f.identity = some p →
    ∃ bytes, f.library.payload f.package f.part = .ok bytes ∧
      Payload.decode f.package bytes = .ok p ∧ p.package = f.package.text ∧
      (c.policy.skipVersionCheck = false → p.version.isCompatibleWith .current = true)
  /-- It was decoded once. Whatever happens next, it holds the same and is not decoded again. -/
  once : ∀ f ∈ c.provider.storedFragments, ∀ p, S.store.payloads.get? f.identity = some p →
    ∀ T, S.Steps T → T.store.payloads.get? f.identity = some p ∧
      T.store.decoderCalls.count f.identity = 1
  populated : ∀ f ∈ c.provider.storedFragments,
    f ∈ S.store.populatedParts ↔ S.store.isPopulated f = true
  distinct : S.store.populatedParts.Nodup
  /-- What is populated next comes after what is populated. -/
  ordered : ∀ T, S.Steps T → S.store.populatedParts <+: T.store.populatedParts
  /-- The populated parts were reported, each of them once and in their order. -/
  reported : S.store.accessed = (S.store.populatedParts.filter (·.reports)).map (·.package)
  /-- A part that cannot be read is never populated, and reports nothing when it is tried. -/
  failed : ∀ f ∈ c.provider.storedFragments, ∀ e t, f.scope.runOn S.store = (.error e, t) →
    t.accessed = S.store.accessed ∧ ∀ T, S.Steps T → f ∉ T.store.populatedParts
  counted : (S.store.countersOf c.counters).packagesDecoded = (S.store.callsOf c).length

theorem Reachable.decoded_once (h : S.Reachable) {f : StoredFragment} (hf : S.store.Holds c f)
    {p : Payload} (hp : S.store.payloads.get? f.identity = some p) :
    S.store.decoderCalls.count f.identity = 1 :=
  h.store.decoded_once hf (Option.isSome_iff_exists.2 ⟨p, hp⟩)

theorem Reachable.never_populated (h : S.Reachable) {f : StoredFragment} (hf : S.store.Holds c f)
    {e : LoadError} (he : f.reading c = .error e) : f ∉ S.store.populatedParts := by
  rw [Store.mem_populatedParts h.sound.store hf]
  intro hpopulated
  obtain ⟨p, hp⟩ := Option.isSome_iff_exists.1 hpopulated
  cases he.symm.trans (h.sound.store.payloads c hf.knows f hf.mem p hp)

theorem Reachable.failed_scope (h : S.Reachable) {f : StoredFragment} (hf : S.store.Holds c f)
    {e : LoadError} {t : Store} (hrun : f.scope.runOn S.store = (.error e, t)) :
    f.reading c = .error e ∧ t.accessed = S.store.accessed := by
  have hs := h.sound.store
  have hvalue := f.scope_eq_reading hs hf
  rw [hrun] at hvalue
  refine ⟨hvalue.symm, ?_⟩
  cases hp : S.store.payloads.get? f.identity with
  | some p =>
    rw [StoredFragment.runOn_scope_of_populated hp] at hrun
    cases (Prod.mk.inj hrun).1
  | none =>
    rw [StoredFragment.runOn_scope hs hf hp, ← hvalue] at hrun
    cases hbytes : f.library.payload f.package f.part with
    | error fault =>
      rw [hbytes] at hrun
      exact (Prod.mk.inj hrun).2 ▸ rfl
    | ok bytes =>
      rw [hbytes] at hrun
      exact (Prod.mk.inj hrun).2 ▸ rfl

/-- **Parts are read once.** In every session, whatever was asked and whatever failed, the services of
a module with counters of its own and the decoder of the binary format have read their parts as
`ReadsOnce` says. -/
theorem Reachable.readsOnce (h : S.Reachable) (hc : S.store.Owns c) (hdecoder : c.decoder = .binary) :
    S.ReadsOnce c := by
  have hholds {f : StoredFragment} (hf : f ∈ c.provider.storedFragments) : S.store.Holds c f :=
    ⟨hc.knows, hf⟩
  have hlater {T : Session} (hT : S.Steps T) {f : StoredFragment}
      (hf : f ∈ c.provider.storedFragments) : T.store.Holds c f :=
    ⟨(hT.store h.sound).knows h.sound.store hc.knows, hf⟩
  refine
    { holds := ?_
      once := ?_
      populated := fun f hf => Store.mem_populatedParts h.sound.store (hholds hf)
      distinct := Store.nodup_populatedParts h.store.tidy
      ordered := fun T hT => (hT.store h.sound).populatedParts h.store
      reported := h.store.logged.accessed
      failed := ?_
      counted := h.store.counted.packages c hc }
  · intro f hf p hp
    obtain ⟨bytes, hbytes, hdecode, hversion⟩ :=
      StoredFragment.reading_eq_ok (h.sound.store.payloads c hc.knows f hf p hp)
    rw [hdecoder, Decoder.binary_eq_ok] at hdecode
    exact ⟨bytes, hbytes, hdecode, Payload.package_of_decode hdecode, hversion⟩
  · intro f hf p hp T hT
    have hp' := (hT.store h.sound).payload hp
    exact ⟨hp', (h.steps hT).decoded_once (hlater hT hf) hp'⟩
  · intro f hf e t hrun
    obtain ⟨he, haccessed⟩ := h.failed_scope (hholds hf) hrun
    exact ⟨haccessed, fun T hT => (h.steps hT).never_populated (hlater hT hf) he⟩

/-- The session after the module in a slot was asked for classes. -/
def finds (S : Session) (slot : Nat) : List ClassId → Session
  | [] => S
  | id :: rest =>
    match S.module? slot with
    | some m => finds (S.query (m.findClass id)).2 slot rest
    | none => S

theorem Sound.finds (h : S.Sound) (slot : Nat) (ids : List ClassId) :
    S.Steps (S.finds slot ids) ∧ S.store.Changes (S.finds slot ids).store := by
  induction ids generalizing S with
  | nil => exact ⟨.refl, .refl _⟩
  | cons id rest ih =>
    unfold Session.finds
    cases S.module? slot with
    | none => exact ⟨.refl, .refl _⟩
    | some m =>
      have hasks : S.store.Asks (m.findClass id) :=
        .through fun c hc => .findClass (Module.knows_of_services? hc) id
      have hstep : Step S (S.query (m.findClass id)).2 := .asked hasks
      obtain ⟨hsteps, hchanges⟩ := ih (h.step hstep)
      exact ⟨.head hstep hsteps, (hasks.keeps h.store).trans hchanges⟩

/-- The first module that is loaded has counters of its own, whatever is found in it. -/
theorem owns_finds {library : Library} {options : LoadOptions}
    (h : ((Module.load library options).runOn {}).1.isOk = true) (slot : Nat) (ids : List ClassId) :
    ∃ c, ((load {} library options).finds slot ids).store.Owns c ∧ c.decoder = options.decoder := by
  rcases Module.load_cases Store.sound_start library options with
    ⟨e, t, -, hrun, -⟩ | ⟨m, c, t, hservices, hrun, hloads⟩
  · rw [hrun] at h
    cases h
  · have hload : load {} library options = hold { store := t } m := load_of_ok (s := {}) hrun
    have howns : t.Owns c := hloads.owns fun d ⟨_, hd⟩ => by cases hd
    have hsound : (load {} library options).Sound := sound_start.load library options
    have hchanges := (hsound.finds slot ids).2
    have hdecoder := Module.decoder_of_servicesOf (c := c.anonymous) hservices
    refine ⟨c, Store.Changes.owns hchanges ?_, hdecoder⟩
    rw [hload]
    exact howns

/-- A library with a package that can be read, one of a later version, and one that is no payload. -/
def mixed : Library :=
  let payload (package : String) (version : MetadataVersion) (name : String) : Bytes :=
    (Payload.mk package version [⟨name, .plain, 0, [], []⟩] [] []).write
  MemoryLibrary.toLibrary
    { name := "mixed"
      manifest := .empty
      header := Header.magic ++ (Header.mk "mixed" ["app", "later", "broken"]).body
      parts := [((.ofText "app", 0), payload "app" .current "A"),
        ((.ofText "later", 0), payload "later" ⟨2, 0, 0⟩ "B"), ((.ofText "broken", 0), [255])] }

/-- The session after the library was loaded and asked for a class of each package, twice. -/
def mixedSession : Session :=
  (load {} mixed { reports := true }).finds 0
    (["later/B", "app/A", "broken/C", "app/A", "later/B", "broken/C"].map .parse)

theorem reachable_mixedSession : mixedSession.Reachable :=
  have hstart : (load {} mixed { reports := true }).Reachable := .single (.loaded _ _)
  hstart.steps (hstart.sound.finds 0 _).1

/-- The package that can be read is decoded and reported once, the others are decoded each time. -/
theorem readsOnce_mixedSession : ∃ c, mixedSession.store.Owns c ∧ c.decoder = .binary ∧
    mixedSession.ReadsOnce c ∧ mixedSession.store.accessed = [.ofText "app"] ∧
    mixedSession.store.decoderCalls.length = 5 := by
  have hload : ((Module.load mixed { reports := true }).runOn {}).1.isOk = true := by decide +kernel
  obtain ⟨c, howns, hdecoder⟩ := owns_finds hload 0 _
  exact ⟨c, howns, hdecoder, reachable_mixedSession.readsOnce howns hdecoder, by decide +kernel,
    by decide +kernel⟩

end Session

end SymbolAtlas
