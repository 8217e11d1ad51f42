import Mathlib.Logic.Relation
import SymbolAtlas.Proofs.Symbols.Lookup

namespace SymbolAtlas

open Query Relation

namespace Store

/-- The store after a part was read, and its payload kept. -/
def populated (s : Store) (f : StoredFragment) (p : Payload) : Store :=
  { (s.decoded f).reported f with payloads := s.payloads.set f.identity p }

def missed (s : Store) (c : Services) (id : ClassId) (typeParameters : UInt32) : Store :=
  { s.countMissing c.counters with
    nextIdentity := s.nextIdentity + 1
    missing := s.missing.set (c.identity, id, typeParameters) ⟨s.nextIdentity, id, typeParameters⟩ }

def placed (s : Store) (f : ExportedFragment) (declaration : QualName) : Store :=
  { s with
    nextIdentity := s.nextIdentity + 1
    placeholders := s.placeholders.set (f.identity, declaration)
      (.ofDeclaration s.nextIdentity declaration) }

def made (s : Store) (c : Services) (id : ClassId) (record : ClassRecord)
    (annotations : List Annotation) : Store :=
  { s.countClass c.counters with
    nextIdentity := s.nextIdentity + 1
    classes := s.classes.set (c.identity, id)
      (some (some (.ofRecord s.nextIdentity id record annotations))) }

/-- No answer to the class is remembered. -/
def Unasked (s : Store) (c : Services) (id : ClassId) : Prop :=
  ∀ answer, ¬ s.Remembers c id answer

/-- An annotation of a missing class has the placeholder that the store has for the class. -/
def Registers (s : Store) (c : Services) (a : Annotation) : Prop :=
  ∀ m, a.annotationClass = .missing m →
    s.missing.get? (c.identity, m.classId, m.typeParameters) = some m

inductive Change (s : Store) : Store → Prop
  /-- Bytes were decoded for nothing: they hold no payload, or one of a version that is refused. -/
  | refused {c : Services} {f : StoredFragment} {bytes : Bytes} {e : LoadError} (hf : s.Holds c f)
      (hbytes : f.library.payload f.package f.part = .ok bytes) (he : f.reading c = .error e) :
      s.Change (s.decoded f)
  | populated {c : Services} {f : StoredFragment} {p : Payload} (hf : s.Holds c f)
      (hnone : s.payloads.get? f.identity = none) (hp : f.reading c = .ok p) :
      s.Change (s.populated f p)
  | missed {c : Services} (hc : s.Knows c) {id : ClassId} {n : UInt32}
      (hnone : s.missing.get? (c.identity, id, n) = none) : s.Change (s.missed c id n)
  | placed {f : ExportedFragment} {declaration : QualName}
      (hnone : s.placeholders.get? (f.identity, declaration) = none) :
      s.Change (s.placed f declaration)
  /-- A class is looked for. -/
  | opened {c : Services} (hc : s.Knows c) {id : ClassId} (hnone : s.Unasked c id) :
      s.Change (c.setCell id none s)
  /-- A class that was looked for is not there. -/
  | absent {c : Services} (hc : s.Knows c) {id : ClassId} (hnone : s.Unasked c id)
      (hmeans : (s.current c).classOf id = .ok none) : s.Change (c.setCell id (some none) s)
  | made {c : Services} (hc : s.Knows c) {id : ClassId} {record : ClassRecord}
      {annotations : List Annotation} (hnone : s.Unasked c id)
      (hmeans : (s.current c).classOf id =
        .ok (some (ClassDescriptor.ofRecord 0 id record annotations).anonymous))
      (hregisters : ∀ a ∈ annotations, s.Registers c a) : s.Change (s.made c id record annotations)

def Changes : Store → Store → Prop :=
  ReflTransGen Change

theorem Changes.refl (s : Store) : s.Changes s :=
  ReflTransGen.refl

theorem Changes.trans {s t u : Store} (h₁ : s.Changes t) (h₂ : t.Changes u) : s.Changes u :=
  ReflTransGen.trans h₁ h₂

instance : Trans Changes Changes Changes := ⟨Changes.trans⟩

variable {s t : Store} {c : Services}

theorem Change.changes (h : s.Change t) : s.Changes t :=
  ReflTransGen.single h

theorem Change.grows (h : s.Change t) : s.Grows t := by
  cases h with
  | refused => exact (Counts.decoded s _).reads.toGrows
  | @populated c f p hf hnone hp =>
    have hcounts := (Counts.decoded s f).trans (Counts.reported _ f)
    have hc := hcounts.reads.knows_iff.2 hf.knows
    exact (hcounts.reads.trans (.payload hc hf.mem hp hnone)).toGrows
  | @missed c _ id n hnone =>
    have hcounts := (Counts.fresh s).trans (Counts.tally _ c.counters
      fun n => { n with missingClasses := n.missingClasses + 1 })
    have hm : (⟨s.nextIdentity, id, n⟩ : MissingClass).anonymous = ⟨0, id, n⟩ := rfl
    exact (hcounts.reads.trans (.placeMissing hm hnone)).toGrows
  | placed hnone => exact (Counts.fresh s).reads.toGrows.trans (.placeholder rfl hnone)
  | opened hc hnone => exact .cell hc (fun _ h => by cases h) hnone
  | absent hc hnone hmeans =>
    refine .cell hc (fun answer hanswer hlive => ?_) hnone
    obtain rfl := Option.some.inj hanswer
    rwa [current_of_live hlive] at hmeans
  | @made c hc id record annotations hnone hmeans =>
    have hcounts := (Counts.tally s c.counters
      fun n => { n with classesRead := n.classesRead + 1 }).trans (Counts.fresh _)
    have hc := hcounts.reads.knows_iff.2 hc
    refine hcounts.reads.toGrows.trans (.cell hc (fun answer hanswer hlive => ?_) hnone)
    obtain rfl := Option.some.inj hanswer
    have hlive : s.hasEnded c.provider.identity = false := hlive
    rwa [current_of_live hlive] at hmeans

theorem Changes.grows (h : s.Changes t) : s.Grows t := by
  induction h with
  | refl => exact .refl s
  | tail _ hchange ih => exact ih.trans hchange.grows

theorem Grows.registers {a : Annotation} (h : s.Grows t) (ha : s.Registers c a) : t.Registers c a :=
  fun m hm => h.missing _ _ (ha m hm)

theorem Reads.unasked {id : ClassId} (h : s.Reads t) (hnone : s.Unasked c id) : t.Unasked c id := by
  intro answer
  rw [Remembers, h.sameClasses]
  exact hnone answer

theorem unasked_opened (s : Store) (c : Services) (id : ClassId) :
    (c.setCell id none s).Unasked c id := by
  intro answer h
  rw [Remembers, Services.setCell, Table.get?_set, if_pos rfl] at h
  cases h

end Store

theorem Query.Keeps.grows {α : Type} {q : Query α} {s : Store} (h : Keeps Store.Changes q s) :
    Keeps Store.Grows q s :=
  Store.Changes.grows h

/-! ## Parts -/

namespace StoredFragment

variable {s : Store} {c : Services} {f : StoredFragment}

theorem runOn_scope_of_populated {p : Payload} (h : s.payloads.get? f.identity = some p) :
    f.scope.runOn s = (.ok p, s) := by
  rw [scope, runOn_get_bind, h]
  rfl

/-- A part that is not populated is read, and then it is. -/
theorem runOn_scope (hs : s.Sound) (hf : s.Holds c f) (hnone : s.payloads.get? f.identity = none) :
    f.scope.runOn s = match f.library.payload f.package f.part, f.reading c with
      | .error _, r => (r, s)
      | .ok _, .error e => (.error e, s.decoded f)
      | .ok _, .ok p => (.ok p, s.populated f p) := by
  rw [scope, runOn_get_bind, hnone]
  dsimp only
  rw [runOn_bind, runOn_load hs hf]
  cases hbytes : f.library.payload f.package f.part with
  | error fault =>
    rw [reading, hbytes]
    rfl
  | ok bytes =>
    cases f.reading c with
    | error e => rfl
    | ok p => rfl

theorem scope_keeps (hs : s.Sound) (hf : s.Holds c f) : Keeps Store.Changes f.scope s := by
  rw [Keeps]
  cases hp : s.payloads.get? f.identity with
  | some p =>
    rw [runOn_scope_of_populated hp]
    exact .refl s
  | none =>
    rw [runOn_scope hs hf hp]
    cases hbytes : f.library.payload f.package f.part with
    | error fault => exact .refl s
    | ok bytes =>
      cases hread : f.reading c with
      | error e => exact (Store.Change.refused hf hbytes hread).changes
      | ok p => exact (Store.Change.populated hf hp hread).changes

theorem classRecord?_keeps (hs : s.Sound) (hf : s.Holds c f) (name : Name) :
    Keeps Store.Changes (f.classRecord? name) s :=
  (scope_keeps hs hf).bind fun _ t _ _ => .refl t

theorem declares_keeps (hs : s.Sound) (hf : s.Holds c f) (name : Name) :
    Keeps Store.Changes (f.declares name) s :=
  (classRecord?_keeps hs hf name).bind fun _ t _ _ => .refl t

end StoredFragment

/-! ## Annotations -/

namespace Services

variable {s t : Store} {c : Services} {id : ClassId}

theorem findRecord_keeps (hs : s.Sound) (hc : s.Knows c) (id : ClassId) :
    Keeps Store.Changes (c.findRecord id) s := by
  rw [Keeps, findRecord, runOn_bind_ok (runOn_liveFragments s c id.package)]
  apply Keeps.firstAnswer Store.Changes.refl
  intro f hf t ht
  have hf := mem_of_mem_current hf
  cases f with
  | stored f =>
    have hrecord := f.classRecord?_keeps (ht.grows.sound hs) (ht.grows.holds (hc.holds hf)) id.relative
    exact hrecord.bind fun _ u _ _ => .refl u
  | aliasing f => exact .refl t
  | exported f => exact .refl t

theorem runOn_missingClass_of_registered {n : UInt32} {m : MissingClass}
    (h : s.missing.get? (c.identity, id, n) = some m) :
    (c.missingClass id n).runOn s = (.ok m, s) := by
  rw [missingClass, runOn_get_bind, h]
  rfl

theorem runOn_missingClass {n : UInt32} (h : s.missing.get? (c.identity, id, n) = none) :
    (c.missingClass id n).runOn s = (.ok ⟨s.nextIdentity, id, n⟩, s.missed c id n) := by
  rw [missingClass, runOn_get_bind, h]
  rfl

theorem missingClass_keeps (hc : s.Knows c) (id : ClassId) (n : UInt32) :
    Keeps Store.Changes (c.missingClass id n) s := by
  rw [Keeps]
  cases hm : s.missing.get? (c.identity, id, n) with
  | some m =>
    rw [runOn_missingClass_of_registered hm]
    exact .refl s
  | none =>
    rw [runOn_missingClass hm]
    exact (Store.Change.missed hc hm).changes

theorem loadAnnotation_keeps (hs : s.Sound) (hc : s.Knows c) (record : AnnotationRecord) :
    Keeps Store.Changes (c.loadAnnotation record) s := by
  apply (findRecord_keeps hs hc _).bind
  intro found t ht _
  cases found with
  | some found => exact .refl t
  | none =>
    dsimp only
    rw [map_eq_pure_bind, bind_assoc]
    exact (missingClass_keeps (ht.grows.knows_iff.2 hc) _ 0).bind fun m u _ _ => .refl u

theorem annotations_keep (hs : s.Sound) (hc : s.Knows c) (records : List AnnotationRecord) :
    Keeps Store.Changes (records.mapM c.loadAnnotation) s :=
  Keeps.mapM Store.Changes.refl fun record _ _ ht =>
    loadAnnotation_keeps (ht.grows.sound hs) (ht.grows.knows_iff.2 hc) record

theorem registered_of_missingClass (hs : s.Sound) {n : UInt32} {m : MissingClass}
    (h : (c.missingClass id n).runOn s = (.ok m, t)) :
    m.classId = id ∧ m.typeParameters = n ∧ t.missing.get? (c.identity, id, n) = some m := by
  cases hm : s.missing.get? (c.identity, id, n) with
  | some m' =>
    rw [runOn_missingClass_of_registered hm] at h
    obtain ⟨hm', rfl⟩ := Prod.mk.inj h
    obtain rfl := Except.ok.inj hm'
    have hanonymous := hs.missing _ _ _ m' hm
    exact ⟨congrArg MissingClass.classId hanonymous, congrArg MissingClass.typeParameters hanonymous, hm⟩
  | none =>
    rw [runOn_missingClass hm] at h
    obtain ⟨hm', rfl⟩ := Prod.mk.inj h
    obtain rfl := Except.ok.inj hm'
    exact ⟨rfl, rfl, by rw [Store.missed, Table.get?_set, if_pos rfl]⟩

theorem loadAnnotation_registers (hs : s.Sound) (hc : s.Knows c) {record : AnnotationRecord}
    {a : Annotation} (h : (c.loadAnnotation record).runOn s = (.ok a, t)) : t.Registers c a := by
  intro m hm
  obtain ⟨found, u, hfound, hnext⟩ := runOn_bind_eq_ok h
  cases found with
  | some found =>
    obtain ⟨ha, -⟩ := Prod.mk.inj hnext
    obtain rfl := Except.ok.inj ha
    cases hm
  | none =>
    dsimp only at hnext
    rw [map_eq_pure_bind, bind_assoc] at hnext
    obtain ⟨m', v, hm', hpure⟩ := runOn_bind_eq_ok hnext
    obtain ⟨ha, rfl⟩ := Prod.mk.inj hpure
    obtain rfl := Except.ok.inj ha
    obtain rfl := AnnotationClass.missing.inj hm
    have hu := ((findRecord_keeps hs hc _).leads hfound).grows
    obtain ⟨hid, hn, hregistered⟩ := registered_of_missingClass (hu.sound hs) hm'
    rw [hid, hn, hregistered]

theorem annotations_register (hs : s.Sound) (hc : s.Knows c) {records : List AnnotationRecord}
    {annotations : List Annotation}
    (h : (records.mapM c.loadAnnotation).runOn s = (.ok annotations, t)) :
    ∀ a ∈ annotations, t.Registers c a := by
  induction records generalizing s annotations with
  | nil =>
    obtain ⟨ha, -⟩ := Prod.mk.inj h
    obtain rfl := Except.ok.inj ha
    exact fun a ha => by cases ha
  | cons record rest ih =>
    rw [List.mapM_cons] at h
    obtain ⟨a, u, ha, hnext⟩ := runOn_bind_eq_ok h
    obtain ⟨as, v, has, hpure⟩ := runOn_bind_eq_ok hnext
    obtain ⟨hcons, rfl⟩ := Prod.mk.inj hpure
    obtain rfl := Except.ok.inj hcons
    have hu := ((loadAnnotation_keeps hs hc record).leads ha).grows
    have hrest := ((annotations_keep (hu.sound hs) (hu.knows_iff.2 hc) rest).leads has).grows
    intro b hb
    rcases List.mem_cons.1 hb with rfl | hb
    · exact hrest.registers (loadAnnotation_registers hs hc ha)
    · exact ih (hu.sound hs) (hu.knows_iff.2 hc) has b hb

/-! ## Classes -/

/-- What is found of a class is written into its cell. -/
theorem answer_keeps (hs : s.Sound) (hc : s.Knows c) (hnone : s.Unasked c id) :
    Keeps Store.Changes (do
      let answer ← c.makeAnswer id
      modify (c.setCell id (some answer))
      return answer : Query (Option ClassDescriptor)) s := by
  have hfind := findRecord_answers hs hc id
  rw [makeAnswer, bind_assoc]
  apply (findRecord_keeps hs hc id).bind
  intro found t ht hfound
  obtain ⟨hmeans, hreads⟩ := hfind.value_of_ok hfound
  have hs' := hreads.sound hs
  have hc' := hreads.knows_iff.2 hc
  have hnone' : t.Unasked c id := hreads.unasked hnone
  cases found with
  | none =>
    refine (Store.Change.absent hc' hnone' ?_).changes
    rw [hreads.current, classOf, hmeans]
    rfl
  | some found =>
    obtain ⟨f, record⟩ := found
    dsimp only
    rw [map_eq_pure_bind, bind_assoc, makeClass, bind_assoc]
    apply (annotations_keep hs' hc' record.annotations).bind
    intro annotations u hu hannotations
    obtain ⟨hmeans', hreads'⟩ := (annotations_answer hs' hc' record.annotations).value_of_ok hannotations
    refine (Store.Change.made (hreads'.knows_iff.2 hc') (hreads'.unasked hnone') ?_
      (annotations_register hs' hc' hannotations)).changes
    have hclass : (u.current c).classOf id = some <$> (t.current c).classFrom id record := by
      rw [hreads'.current, hreads.current, classOf, hmeans]
      rfl
    rw [hclass, classFrom, hmeans']
    rfl

theorem readClass_keeps (hs : s.Sound) (hc : s.Knows c) (id : ClassId) :
    Keeps Store.Changes (c.readClass id) s := by
  by_cases h : ∃ answer, s.Remembers c id answer
  · obtain ⟨answer, h⟩ := h
    rw [Keeps, runOn_readClass_of_remembers h]
    exact .refl s
  · have hnone : s.Unasked c id := not_exists.1 h
    have hopened := Store.Change.opened hc hnone
    have hgrows := hopened.grows
    have hanswer := answer_keeps (hgrows.sound hs) (hgrows.knows_iff.2 hc)
      (Store.unasked_opened s c id)
    rw [Keeps, runOn_readClass_of_not hnone, runOn_modify_bind]
    exact hopened.changes.trans hanswer

end Services

end SymbolAtlas
