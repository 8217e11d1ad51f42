import SymbolAtlas.Proofs.Payload.Local
import SymbolAtlas.Proofs.Symbols.Sound

namespace SymbolAtlas

open Query

theorem Provider.stored_mem {p : Provider} {f : StoredFragment} :
    .stored f ∈ p.fragments ↔ f ∈ p.storedFragments := by
  rw [Provider.storedFragments, List.mem_filterMap]
  constructor
  · exact fun h => ⟨.stored f, h, rfl⟩
  · rintro ⟨g, hg, hf⟩
    cases g with
    | stored g => exact Option.some.inj hf ▸ hg
    | aliasing g => cases hf
    | exported g => cases hf

theorem Provider.mem_packageFragments {p : Provider} {package : QualName} {f : Fragment} :
    f ∈ p.packageFragments package ↔ f ∈ p.fragments ∧ f.package = package := by
  rw [Provider.packageFragments, List.mem_filter, beq_iff_eq]

/-- `f` is one of the stored fragments of services that the store knows. -/
structure Store.Holds (s : Store) (c : Services) (f : StoredFragment) : Prop where
  knows : s.Knows c
  mem : f ∈ c.provider.storedFragments

theorem Store.Grows.holds {s t : Store} {c : Services} {f : StoredFragment} (h : s.Grows t)
    (hf : s.Holds c f) : t.Holds c f :=
  ⟨h.knows_iff.2 hf.knows, hf.mem⟩

theorem Store.Knows.holds {s : Store} {c : Services} (hc : s.Knows c) {package : QualName}
    {f : StoredFragment} (h : .stored f ∈ c.provider.packageFragments package) : s.Holds c f :=
  ⟨hc, Provider.stored_mem.1 (Provider.mem_packageFragments.1 h).1⟩

def Store.decoded (s : Store) (f : StoredFragment) : Store :=
  { s.countPackage f.counters with decoderCalls := s.decoderCalls ++ [f.identity] }

def Store.reported (s : Store) (f : StoredFragment) : Store :=
  { s with accessed := if f.reports then s.accessed ++ [f.package] else s.accessed }

theorem Store.Counts.decoded (s : Store) (f : StoredFragment) : s.Counts (s.decoded f) :=
  ⟨rfl, rfl, rfl, Nat.le_refl _, rfl, rfl, rfl, rfl⟩

theorem Store.Counts.reported (s : Store) (f : StoredFragment) : s.Counts (s.reported f) :=
  ⟨rfl, rfl, rfl, Nat.le_refl _, rfl, rfl, rfl, rfl⟩

namespace StoredFragment

variable {s : Store} {c : Services} {f : StoredFragment}

theorem runOn_services (hs : s.Sound) (hf : s.Holds c f) : f.services.runOn s = (.ok c, s) := by
  rw [services, runOn_get_bind, hs.reader c hf.knows f hf.mem]
  rfl

theorem reading_of_error {bytes : Bytes} {message : String}
    (hbytes : f.library.payload f.package f.part = .ok bytes)
    (hdecoder : c.decoder f.package bytes = .error message) :
    f.reading c = .error (.corruptPackage f.library.name f.package.text message) := by
  rw [reading, hbytes]
  change (Except.mapError _ (c.decoder f.package bytes) >>= _) = _
  rw [hdecoder]
  rfl

theorem reading_of_ok {bytes : Bytes} {payload : Payload}
    (hbytes : f.library.payload f.package f.part = .ok bytes)
    (hdecoder : c.decoder f.package bytes = .ok payload) :
    f.reading c =
      if !c.policy.skipVersionCheck && !payload.version.isCompatibleWith .current then
        .error (.incompatibleMetadata f.library.name f.package.text payload.version.toText
          MetadataVersion.current.toText)
      else .ok payload := by
  rw [reading, hbytes]
  change (Except.mapError _ (c.decoder f.package bytes) >>= _) = _
  rw [hdecoder]
  rfl

theorem reading_eq_ok {p : Payload} (h : f.reading c = .ok p) :
    ∃ bytes, f.library.payload f.package f.part = .ok bytes ∧
      c.decoder f.package bytes = .ok p ∧
      (c.policy.skipVersionCheck = false → p.version.isCompatibleWith .current = true) := by
  cases hbytes : f.library.payload f.package f.part with
  | error fault =>
    rw [reading, hbytes] at h
    cases h
  | ok bytes =>
    refine ⟨bytes, rfl, ?_⟩
    cases hdecoder : c.decoder f.package bytes with
    | error message =>
      rw [reading_of_error hbytes hdecoder] at h
      cases h
    | ok q =>
      rw [reading_of_ok hbytes hdecoder] at h
      split at h
      · cases h
      · rename_i hversion
        obtain rfl := Except.ok.inj h
        exact ⟨rfl, by simpa using hversion⟩

theorem runOn_decode_error {bytes : Bytes} {message : String}
    (h : c.decoder f.package bytes = .error message) (s : Store) :
    (f.decode c bytes).runOn s = (.error (.corruptPackage f.library.name f.package.text message),
      { s with decoderCalls := s.decoderCalls ++ [f.identity] }) := by
  change (Except.mapError _ (c.decoder f.package bytes), _) = _
  rw [h]
  rfl

theorem runOn_decode_ok {bytes : Bytes} {payload : Payload}
    (h : c.decoder f.package bytes = .ok payload) (s : Store) :
    (f.decode c bytes).runOn s =
      (.ok payload, { s with decoderCalls := s.decoderCalls ++ [f.identity] }) := by
  change (Except.mapError _ (c.decoder f.package bytes), _) = _
  rw [h]
  rfl

/-- The bytes of the part are decoded unless they cannot be read, and what is kept is reported. -/
theorem runOn_load (hs : s.Sound) (hf : s.Holds c f) : f.load.runOn s =
    match f.library.payload f.package f.part, f.reading c with
    | .error _, r => (r, s)
    | .ok _, .error e => (.error e, s.decoded f)
    | .ok _, .ok p => (.ok p, (s.decoded f).reported f) := by
  rw [load, runOn_bind_ok (runOn_services hs hf)]
  cases hbytes : f.library.payload f.package f.part with
  | error fault =>
    rw [reading, hbytes]
    rfl
  | ok bytes =>
    change (Query.ofExcept (.ok bytes) >>= _).runOn s = _
    rw [runOn_bind_ok (runOn_ofExcept _ s), runOn_modify_bind]
    cases hdecoder : c.decoder f.package bytes with
    | error message =>
      rw [reading_of_error hbytes hdecoder, runOn_bind, runOn_decode_error hdecoder]
      rfl
    | ok payload =>
      rw [reading_of_ok hbytes hdecoder, runOn_bind_ok (runOn_decode_ok hdecoder _)]
      generalize (!c.policy.skipVersionCheck && !payload.version.isCompatibleWith .current) = refused
      cases refused with
      | true => rfl
      | false =>
        unfold Store.reported
        cases f.reports <;> rfl

theorem load_answers (hs : s.Sound) (hf : s.Holds c f) :
    Answers Store.Counts f.load s id (f.reading c) := by
  have hrun := runOn_load hs hf
  cases hbytes : f.library.payload f.package f.part with
  | error fault =>
    rw [hbytes] at hrun
    exact ⟨by rw [hrun]; exact .refl s, by rw [hrun]; cases f.reading c <;> rfl⟩
  | ok bytes =>
    rw [hbytes] at hrun
    cases hread : f.reading c with
    | error e =>
      rw [hread] at hrun
      exact ⟨by rw [hrun]; exact .decoded s f, by rw [hrun]; rfl⟩
    | ok p =>
      rw [hread] at hrun
      exact ⟨by rw [hrun]; exact (Store.Counts.decoded s f).trans (.reported _ f), by rw [hrun]; rfl⟩

theorem scope_answers (hs : s.Sound) (hf : s.Holds c f) :
    Answers Store.Reads f.scope s id (f.reading c) := by
  apply Answers.bindGet
  cases hp : s.payloads.get? f.identity with
  | some p =>
    rw [hs.payloads c hf.knows f hf.mem p hp]
    exact .pure' (.refl s) p
  | none =>
    rw [← bind_pure (f.reading c)]
    apply Answers.bindVia (fun _ => Store.Counts.reads) (load_answers hs hf)
    intro p t ht hread
    have hnone : t.payloads.get? f.identity = none := by rw [ht.payloads, hp]
    have hf' := ht.reads.holds hf
    exact .bindModify (.payload hf'.knows hf'.mem hread hnone) (.pure' (.refl _) p)

theorem scope_eq_reading (hs : s.Sound) (hf : s.Holds c f) : (f.scope.runOn s).1 = f.reading c := by
  have hvalue := (scope_answers hs hf).value
  rwa [Except.map_id] at hvalue

theorem classRecord?_answers (hs : s.Sound) (hf : s.Holds c f) (name : Name) :
    Answers Store.Reads (f.classRecord? name) s id (f.recordOf c name) :=
  (scope_answers hs hf).bind fun p t _ _ => .pure' (.refl t) (p.class? name)

theorem declares_answers (hs : s.Sound) (hf : s.Holds c f) (name : Name) :
    Answers Store.Reads (f.declares name) s id (f.hasRecord c name) :=
  (classRecord?_answers hs hf name).bind fun r t _ _ => .pure' (.refl t) r.isSome

end StoredFragment

namespace Services

variable {s : Store} {c : Services}

theorem runOn_liveFragments (s : Store) (c : Services) (package : QualName) :
    (c.liveFragments package).runOn s =
      (.ok ((s.current c).provider.packageFragments package), s) := by
  rw [liveFragments, runOn_get_bind, Store.current]
  cases s.hasEnded c.provider.identity <;> rfl

theorem recordIn_current (name : Name) (f : Fragment) :
    (s.current c).recordIn name f = c.recordIn name f := by
  unfold Store.current
  split <;> rfl

theorem mem_of_mem_current {package : QualName} {f : Fragment}
    (h : f ∈ (s.current c).provider.packageFragments package) :
    f ∈ c.provider.packageFragments package := by
  unfold Store.current at h
  split at h
  · cases h
  · exact h

theorem findRecord_answers (hs : s.Sound) (hc : s.Knows c) (id : ClassId) :
    Answers Store.Reads (c.findRecord id) s (fun r => r) ((s.current c).recordOf id) := by
  apply Answers.bindOk (runOn_liveFragments s c id.package)
  apply Answers.firstAnswer_same Store.Reads.refl
  intro f hf t ht
  have hf := mem_of_mem_current hf
  cases f with
  | stored f =>
    rw [recordIn_current]
    have hrecord := StoredFragment.classRecord?_answers (ht.sound hs) (ht.holds (hc.holds hf))
      id.relative
    apply hrecord.bind
    intro r t _ _
    exact .pure' (.refl t) _
  | aliasing f => exact .pure' (.refl t) none
  | exported f => exact .pure' (.refl t) none

theorem missingClass_answers (hs : s.Sound) (c : Services) (id : ClassId) (n : UInt32) :
    Answers Store.Reads (c.missingClass id n) s MissingClass.anonymous (.ok ⟨0, id, n⟩) := by
  apply Answers.bindGet
  cases hm : s.missing.get? (c.identity, id, n) with
  | some m => exact ⟨.refl s, congrArg Except.ok (hs.missing _ _ _ m hm)⟩
  | none =>
    apply Answers.bindFresh (Store.Counts.fresh s).reads
    have hcount := Store.Counts.tally { s with nextIdentity := s.nextIdentity + 1 } c.counters
      fun n => { n with missingClasses := n.missingClasses + 1 }
    exact .bindModify (hcount.reads.trans (.placeMissing rfl hm)) (.pure' (.refl _) _)

theorem loadAnnotation_answers (hs : s.Sound) (hc : s.Knows c) (record : AnnotationRecord) :
    Answers Store.Reads (c.loadAnnotation record) s Annotation.anonymous
      ((s.current c).annotationOf record) := by
  apply (findRecord_answers hs hc _).bind
  intro found t ht _
  cases found with
  | some found => exact .pure' (.refl t) _
  | none =>
    dsimp only
    rw [map_eq_pure_bind, bind_assoc]
    apply (missingClass_answers (ht.sound hs) c _ 0).bindKnown
    intro m u _ hm
    refine ⟨.refl u, ?_⟩
    rw [← hm]
    rfl

theorem annotations_answer (hs : s.Sound) (hc : s.Knows c) (records : List AnnotationRecord) :
    Answers Store.Reads (records.mapM c.loadAnnotation) s (List.map Annotation.anonymous)
      (records.mapM (s.current c).annotationOf) := by
  apply Answers.mapM Store.Reads.refl
  intro record _ t ht
  rw [← ht.current c]
  exact loadAnnotation_answers (ht.sound hs) (ht.knows_iff.2 hc) record

theorem makeClass_answers (hs : s.Sound) (hc : s.Knows c) (id : ClassId) (record : ClassRecord) :
    Answers Store.Reads (c.makeClass id record) s ClassDescriptor.anonymous
      ((s.current c).classFrom id record) := by
  apply (annotations_answer hs hc record.annotations).bind
  intro annotations t ht _
  apply Answers.bindModify (Store.Counts.tally t _ _).reads
  apply Answers.bindFresh (Store.Counts.fresh _).reads
  exact .pure' (.refl _) _

/-! ## Classes -/

/-- Looks for a class and makes it, whether it is remembered or not. -/
def makeAnswer (c : Services) (id : ClassId) : Query (Option ClassDescriptor) := do
  match ← c.findRecord id with
  | some (_, record) => some <$> c.makeClass id record
  | none => return none

theorem makeAnswer_answers (hs : s.Sound) (hc : s.Knows c) (id : ClassId) :
    Answers Store.Reads (c.makeAnswer id) s (Option.map ClassDescriptor.anonymous)
      ((s.current c).classOf id) := by
  apply (findRecord_answers hs hc id).bind
  intro found t ht _
  cases found with
  | none => exact .pure' (.refl t) none
  | some found =>
    obtain ⟨f, record⟩ := found
    rw [← ht.current c]
    exact (makeClass_answers (ht.sound hs) (ht.knows_iff.2 hc) id record).map fun _ => rfl

def setCell (c : Services) (id : ClassId) (cell : Option (Option ClassDescriptor)) (s : Store) :
    Store :=
  { s with classes := s.classes.set (c.identity, id) cell }

/-- A class that is not remembered is looked for, and what is found is remembered. -/
theorem runOn_readClass_of_not {id : ClassId} (hnone : ∀ answer, ¬ s.Remembers c id answer) :
    (c.readClass id).runOn s = (do
      modify (c.setCell id none)
      let answer ← c.makeAnswer id
      modify (c.setCell id (some answer))
      return answer : Query (Option ClassDescriptor)).runOn s := by
  rw [readClass, runOn_get_bind]
  split
  · rename_i answer hcell
    exact absurd hcell (hnone answer)
  · simp only [makeAnswer, bind_assoc]
    congr
    funext _
    congr
    funext found
    cases found with
    | none => rfl
    | some found => rfl

theorem readClass_answers_of_not (hs : s.Sound) (hc : s.Knows c) {id : ClassId}
    (hnone : ∀ answer, ¬ s.Remembers c id answer) :
    Answers Store.Grows (c.readClass id) s (Option.map ClassDescriptor.anonymous)
      ((s.current c).classOf id) := by
  have hset : s.Grows (c.setCell id none s) := .cell hc (fun _ h => by cases h) hnone
  suffices h : Answers Store.Grows (do
      modify (c.setCell id none)
      let answer ← c.makeAnswer id
      modify (c.setCell id (some answer))
      return answer : Query (Option ClassDescriptor)) s (Option.map ClassDescriptor.anonymous)
      ((s.current c).classOf id) by
    obtain ⟨hleads, hvalue⟩ := h
    rw [← runOn_readClass_of_not hnone] at hleads hvalue
    exact ⟨hleads, hvalue⟩
  apply Answers.bindModify hset
  rw [← bind_pure ((s.current c).classOf id), ← hset.current c]
  have hmake := makeAnswer_answers (hset.sound hs) (hset.knows_iff.2 hc) id
  apply Answers.bindVia (fun _ => Store.Reads.toGrows) hmake
  intro answer t ht hanswer
  refine Answers.bindModify (.cell ?_ ?_ ?_) (.pure' (.refl _) answer)
  · exact ht.knows_iff.2 (hset.knows_iff.2 hc)
  · intro answer' hsome hlive
    obtain rfl := Option.some.inj hsome
    rw [ht.hasEnded] at hlive
    rwa [Store.current_of_live hlive] at hanswer
  · intro answer' hremembers
    rw [Store.Remembers, ht.sameClasses, setCell, Table.get?_set, if_pos rfl] at hremembers
    cases hremembers

theorem runOn_readClass_of_remembers {id : ClassId} {answer : Option ClassDescriptor}
    (h : s.Remembers c id answer) : (c.readClass id).runOn s = (.ok answer, s) := by
  rw [readClass, runOn_get_bind, h]
  rfl

theorem readClass_grows (hs : s.Sound) (hc : s.Knows c) (id : ClassId) :
    s.Grows ((c.readClass id).runOn s).2 := by
  by_cases h : ∃ answer, s.Remembers c id answer
  · obtain ⟨answer, h⟩ := h
    rw [runOn_readClass_of_remembers h]
    exact .refl s
  · exact (readClass_answers_of_not hs hc (not_exists.1 h)).leads

/-- What is remembered of a class makes no difference while its provider is in use. -/
theorem readClass_answers (hs : s.Sound) (hc : s.Knows c)
    (hlive : s.hasEnded c.provider.identity = false) (id : ClassId) :
    Answers Store.Grows (c.readClass id) s (Option.map ClassDescriptor.anonymous) (c.classOf id) := by
  by_cases h : ∃ answer, s.Remembers c id answer
  · obtain ⟨answer, h⟩ := h
    refine ⟨readClass_grows hs hc id, ?_⟩
    rw [runOn_readClass_of_remembers h, hs.classes c hc hlive id answer h]
    rfl
  · have hread := readClass_answers_of_not hs hc (not_exists.1 h)
    rwa [Store.current_of_live hlive] at hread

/-- An answer is remembered. -/
theorem remembers_of_readClass {id : ClassId} {answer : Option ClassDescriptor} {t : Store}
    (h : (c.readClass id).runOn s = (.ok answer, t)) : t.Remembers c id answer := by
  by_cases hr : ∃ answer, s.Remembers c id answer
  · obtain ⟨answer', hr⟩ := hr
    rw [runOn_readClass_of_remembers hr] at h
    obtain ⟨ha, rfl⟩ := Prod.mk.inj h
    exact Except.ok.inj ha ▸ hr
  · rw [runOn_readClass_of_not (not_exists.1 hr), runOn_modify_bind, runOn_bind] at h
    split at h
    · rename_i answer' u hu
      rw [runOn_modify_bind, runOn_pure] at h
      obtain ⟨ha, rfl⟩ := Prod.mk.inj h
      obtain rfl := Except.ok.inj ha
      rw [Store.Remembers, setCell, Table.get?_set, if_pos rfl]
    · cases (Prod.mk.inj h).1

end Services

end SymbolAtlas
