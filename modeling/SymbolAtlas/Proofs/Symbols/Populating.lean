import SymbolAtlas.Proofs.Symbols.Contribution

/-!
# What look-ups populate

A part is populated when it is read for the first time. `Query.Touches P q s` says that the query `q`,
asked of the store `s`, looks into the parts that `P` says: whatever comes of it, it populates no others,
and when it answers, all of them are populated.

* `Query.Touches.bind`: what one query looks into after another;
* `Services.Searched`: the parts that the search for a class comes to;
* `Services.readClass_touches`: reading a class looks into these parts, and into those that its
  annotations are searched in, unless the class is remembered.
-/

namespace SymbolAtlas

open Query

/-- No parts are populated in `t` but those that are in `s`, and parts that `P` says. -/
structure Store.Populates (P : StoredFragment → Prop) (s t : Store) : Prop where
  kept : ∀ i p, s.payloads.get? i = some p → t.payloads.get? i = some p
  only : ∀ i p, t.payloads.get? i = some p →
    s.payloads.get? i = some p ∨ ∃ f, P f ∧ f.identity = i

namespace Store.Populates

variable {P Q : StoredFragment → Prop} {s t u : Store}

theorem of_same (h : t.payloads = s.payloads) : Populates P s t :=
  ⟨fun _ _ hp => h ▸ hp, fun _ _ hp => .inl (h ▸ hp)⟩

theorem mono (h : Populates P s t) (hPQ : ∀ f, P f → Q f) : Populates Q s t := by
  refine ⟨h.kept, fun i p hp => (h.only i p hp).imp_right ?_⟩
  rintro ⟨f, hf, rfl⟩
  exact ⟨f, hPQ f hf, rfl⟩

theorem trans (h₁ : Populates P s t) (h₂ : Populates P t u) : Populates P s u :=
  ⟨fun i p hp => h₂.kept i p (h₁.kept i p hp),
    fun i p hp => (h₂.only i p hp).elim (h₁.only i p) .inr⟩

theorem isPopulated (h : Populates P s t) {f : StoredFragment} (hf : s.isPopulated f = true) :
    t.isPopulated f = true := by
  obtain ⟨p, hp⟩ := Option.isSome_iff_exists.1 hf
  exact Option.isSome_iff_exists.2 ⟨p, h.kept _ p hp⟩

end Store.Populates

/-- The query, asked of `s`, looks into the parts that `P` says. -/
structure Query.Touches {α : Type} (P : StoredFragment → Prop) (q : Query α) (s : Store) : Prop where
  populates : Store.Populates P s (q.runOn s).2
  fills : ∀ a t, q.runOn s = (.ok a, t) → ∀ f, P f → t.isPopulated f = true

namespace Query.Touches

variable {α β : Type} {P Q : StoredFragment → Prop} {q : Query α} {f : α → Query β} {s : Store}

theorem congr (h : Touches P q s) (hPQ : ∀ g, Q g ↔ P g) : Touches Q q s :=
  ⟨h.populates.mono fun g hg => (hPQ g).2 hg, fun a t hrun g hg => h.fills a t hrun g ((hPQ g).1 hg)⟩

theorem of_runOn {q' : Query α} (h : q.runOn s = q'.runOn s) (h' : Touches P q' s) : Touches P q s := by
  obtain ⟨hpopulates, hfills⟩ := h'
  rw [← h] at hpopulates hfills
  exact ⟨hpopulates, hfills⟩

/-- A query that leaves the payloads as they are touches nothing. -/
theorem nothing (h : (q.runOn s).2.payloads = s.payloads) : Touches (fun _ => False) q s :=
  ⟨.of_same h, fun _ _ _ _ hf => hf.elim⟩

theorem pure' (a : α) (s : Store) : Touches (fun _ => False) (pure a) s :=
  nothing rfl

/-- What is looked into by a query and then by the one that follows it. -/
theorem bind {R : StoredFragment → Prop} (hq : Touches P q s) (hP : ∀ g, P g → R g)
    (hf : ∀ a t, q.runOn s = (.ok a, t) → ∃ Q, Touches Q (f a) t ∧ ∀ g, R g ↔ P g ∨ Q g) :
    Touches R (q >>= f) s := by
  have hpopulates := hq.populates
  have hfills := hq.fills
  have hrun := runOn_bind q f s
  rcases hqs : q.runOn s with ⟨r, t⟩
  rw [hqs] at hpopulates hfills hrun
  cases r with
  | error e =>
    refine ⟨by rw [hrun]; exact hpopulates.mono hP, fun a u hu => ?_⟩
    rw [hrun] at hu
    cases (Prod.mk.inj hu).1
  | ok a =>
    obtain ⟨Q, hQ, hR⟩ := hf a t hqs
    dsimp only at hrun
    refine ⟨?_, fun b u hu g hg => ?_⟩
    · rw [hrun]
      exact (hpopulates.mono hP).trans (hQ.populates.mono fun g hg => (hR g).2 (.inr hg))
    · rw [hrun] at hu
      rcases (hR g).1 hg with hg | hg
      · have hkeeps := hQ.populates
        rw [hu] at hkeeps
        exact hkeeps.isPopulated (hfills a t rfl g hg)
      · exact hQ.fills b u hu g hg

theorem thenNothing (hq : Touches P q s)
    (hf : ∀ a t, q.runOn s = (.ok a, t) → Touches (fun _ => False) (f a) t) :
    Touches P (q >>= f) s :=
  hq.bind (fun _ => id) fun a t h => ⟨_, hf a t h, fun _ => by rw [or_false]⟩

theorem afterNothing (hq : Touches (fun _ => False) q s)
    (hf : ∀ a t, q.runOn s = (.ok a, t) → Touches P (f a) t) : Touches P (q >>= f) s :=
  hq.bind (fun _ h => h.elim) fun a t h => ⟨_, hf a t h, fun _ => by rw [false_or]⟩

theorem bindOk {a : α} (hq : q.runOn s = (.ok a, s)) (h : Touches P (f a) s) : Touches P (q >>= f) s :=
  h.of_runOn (runOn_bind_ok hq)

/-- Queries that are asked one after the other look into what each of them looks into. -/
theorem mapM {ι : Type} {R : Store → Store → Prop} [Trans R R R] (hR : ∀ s, R s s)
    {ask : ι → Query α} {P : ι → StoredFragment → Prop} {items : List ι}
    (h : ∀ i ∈ items, ∀ t, R s t → Keeps R (ask i) t ∧ Touches (P i) (ask i) t) :
    Touches (fun f => ∃ i ∈ items, P i f) (items.mapM ask) s := by
  induction items generalizing s with
  | nil => exact (Touches.pure' [] s).congr fun f => by simp
  | cons i rest ih =>
    rw [List.mapM_cons]
    obtain ⟨hkeeps, htouches⟩ := h i List.mem_cons_self s (hR s)
    refine htouches.bind (fun f hf => ⟨i, List.mem_cons_self, hf⟩) fun a t ha => ?_
    have ht : R s t := hkeeps.leads ha
    have hrest := ih fun j hj u hu => h j (List.mem_cons_of_mem i hj) u (Trans.trans ht hu)
    refine ⟨_, hrest.thenNothing fun as u _ => .pure' _ u, fun f => ?_⟩
    simp

end Query.Touches

/-! ## Parts -/

namespace StoredFragment

variable {s : Store} {c : Services} {f : StoredFragment}

theorem scope_touches (hs : s.Sound) (hf : s.Holds c f) : Touches (· = f) f.scope s := by
  cases hp : s.payloads.get? f.identity with
  | some p =>
    have hrun := runOn_scope_of_populated hp
    refine ⟨.of_same (by rw [hrun]), fun a t ht g hg => ?_⟩
    rw [hrun] at ht
    obtain ⟨-, rfl⟩ := Prod.mk.inj ht
    rw [hg, Store.isPopulated, hp]
    rfl
  | none =>
    have hrun := runOn_scope hs hf hp
    cases hbytes : f.library.payload f.package f.part with
    | error fault =>
      have hread : ∃ e, f.reading c = .error e := by
        rw [reading, hbytes]
        exact ⟨_, rfl⟩
      obtain ⟨e, hread⟩ := hread
      rw [hbytes, hread] at hrun
      refine ⟨.of_same (by rw [hrun]), fun a t ht => ?_⟩
      rw [hrun] at ht
      cases (Prod.mk.inj ht).1
    | ok bytes =>
      rw [hbytes] at hrun
      cases hread : f.reading c with
      | error e =>
        rw [hread] at hrun
        refine ⟨.of_same (by rw [hrun]; rfl), fun a t ht => ?_⟩
        rw [hrun] at ht
        cases (Prod.mk.inj ht).1
      | ok p =>
        rw [hread] at hrun
        refine ⟨⟨fun i q hq => ?_, fun i q hq => ?_⟩, fun a t ht g hg => ?_⟩
        · rw [hrun]
          exact Store.get?_set_of_none hp hq
        · rw [hrun] at hq
          dsimp only [Store.populated] at hq
          rw [Table.get?_set] at hq
          split at hq
          · rename_i hi
            exact .inr ⟨f, rfl, hi.symm⟩
          · exact .inl hq
        · rw [hrun] at ht
          obtain ⟨-, rfl⟩ := Prod.mk.inj ht
          rw [hg, Store.isPopulated, Store.populated, Table.get?_set, if_pos rfl]
          rfl

theorem classRecord?_touches (hs : s.Sound) (hf : s.Holds c f) (name : Name) :
    Touches (· = f) (f.classRecord? name) s :=
  (scope_touches hs hf).thenNothing fun _ t _ => .pure' _ t

theorem declares_touches (hs : s.Sound) (hf : s.Holds c f) (name : Name) :
    Touches (· = f) (f.declares name) s :=
  (classRecord?_touches hs hf name).thenNothing fun _ t _ => .pure' _ t

end StoredFragment

/-! ## Searches -/

theorem StoredFragment.hasRecord_of_recordOf (f : StoredFragment) {c : Services} {name : Name}
    {record : Option ClassRecord} (h : f.recordOf c name = .ok record) :
    f.hasRecord c name = .ok record.isSome := by
  rw [hasRecord, h]
  rfl

namespace Services

/-- A search through parts comes to a part when no part before it declares the name. -/
inductive Comes (c : Services) (name : Name) : List StoredFragment → StoredFragment → Prop
  | here {f : StoredFragment} {rest : List StoredFragment} : c.Comes name (f :: rest) f
  | past {f g : StoredFragment} {rest : List StoredFragment} (hf : f.hasRecord c name = .ok false)
      (hg : c.Comes name rest g) : c.Comes name (f :: rest) g

def parts (c : Services) (package : QualName) : List StoredFragment :=
  c.provider.storedFragments.filter (·.package == package)

/-- The search for a class, through the parts of its package, comes to this part. -/
def Searched (c : Services) (id : ClassId) : StoredFragment → Prop :=
  c.Comes id.relative (c.parts id.package)

/-- The class that is read from the parts of its package has an annotation whose class is searched in
this part. -/
def Annotated (c : Services) (id : ClassId) (f : StoredFragment) : Prop :=
  ∃ g record, c.recordOf id = .ok (some (g, record)) ∧
    ∃ r ∈ record.annotations, c.Searched (.parse r.className) f

variable {s : Store} {c : Services} {id : ClassId} {name : Name} {f g : StoredFragment}
  {rest : List StoredFragment}

theorem not_comes_nil : ¬ c.Comes name [] g :=
  nofun

theorem comes_cons : c.Comes name (f :: rest) g ↔
    g = f ∨ f.hasRecord c name = .ok false ∧ c.Comes name rest g := by
  constructor
  · rintro (_ | ⟨hf, hg⟩)
    · exact .inl rfl
    · exact .inr ⟨hf, hg⟩
  · rintro (rfl | ⟨hf, hg⟩)
    · exact .here
    · exact .past hf hg

theorem parts_packageFragments (c : Services) (package : QualName) :
    (c.provider.packageFragments package).filterMap Fragment.stored? = c.parts package := by
  rw [parts, Provider.storedFragments, Provider.packageFragments, List.filter_filterMap,
    List.filterMap_filter]
  congr
  funext f
  cases f with
  | stored f =>
    cases h : f.package == package <;>
      simp [Fragment.stored?, Fragment.package, Option.filter, h]
  | aliasing a => simp [Fragment.stored?]
  | exported e => simp [Fragment.stored?]

/-- The search for a record looks into the parts that it comes to. -/
theorem records_touch {ask : Fragment → Query (Option (StoredFragment × ClassRecord))}
    (hask : ∀ f, ask (.stored f) = do return (← f.classRecord? name).map fun record => (f, record))
    (hpass : ∀ f, f.stored? = none → ask f = pure none) (hs : s.Sound) (hc : s.Knows c)
    {items : List Fragment} (hitems : ∀ f, .stored f ∈ items → f ∈ c.provider.storedFragments) :
    Touches (c.Comes name (items.filterMap Fragment.stored?)) (firstAnswer ask items) s := by
  induction items generalizing s with
  | nil => exact (Touches.pure' none s).congr fun g => iff_of_false not_comes_nil not_false
  | cons i rest ih =>
    have hrest : ∀ g, .stored g ∈ rest → g ∈ c.provider.storedFragments :=
      fun g hg => hitems g (List.mem_cons_of_mem i hg)
    cases i with
    | stored f =>
      have hf : s.Holds c f := ⟨hc, hitems f List.mem_cons_self⟩
      have hask' : Touches (· = f) (ask (.stored f)) s := by
        rw [hask]
        exact (f.classRecord?_touches hs hf name).thenNothing fun _ t _ => .pure' _ t
      refine hask'.bind (fun g hg => hg ▸ .here) fun answer t hanswer => ?_
      rw [hask] at hanswer
      obtain ⟨record, u, hrecord, hpure⟩ := runOn_bind_eq_ok hanswer
      obtain ⟨ha, rfl⟩ := Prod.mk.inj hpure
      obtain rfl := Except.ok.inj ha
      obtain ⟨hmeans, ht⟩ := (f.classRecord?_answers hs hf name).value_of_ok hrecord
      have hdeclares := f.hasRecord_of_recordOf hmeans
      cases record with
      | some record =>
        refine ⟨_, .pure' _ u, fun g => ?_⟩
        rw [or_false]
        exact comes_cons.trans (or_iff_left fun h => by cases hdeclares.symm.trans h.1)
      | none =>
        refine ⟨_, ih (ht.sound hs) (ht.knows_iff.2 hc) hrest, fun g => ?_⟩
        exact comes_cons.trans (or_congr_right (and_iff_right hdeclares))
    | aliasing a =>
      rw [firstAnswer, hpass _ rfl, pure_bind]
      exact ih hs hc hrest
    | exported e =>
      rw [firstAnswer, hpass _ rfl, pure_bind]
      exact ih hs hc hrest

theorem findRecord_touches (hs : s.Sound) (hc : s.Serves c) (id : ClassId) :
    Touches (c.Searched id) (c.findRecord id) s := by
  have hlive := runOn_liveFragments s c id.package
  rw [Store.current_of_live hc.live] at hlive
  refine .bindOk hlive ?_
  rw [Searched, ← parts_packageFragments]
  refine records_touch (fun _ => rfl) (fun f hf => ?_) hs hc.knows fun f hf =>
    Provider.stored_mem.1 (Provider.mem_packageFragments.1 hf).1
  cases f with
  | stored f => cases hf
  | aliasing a => rfl
  | exported e => rfl

/-! ## Classes -/

theorem missingClass_touches (c : Services) (id : ClassId) (n : UInt32) (s : Store) :
    Touches (fun _ => False) (c.missingClass id n) s := by
  cases hm : s.missing.get? (c.identity, id, n) with
  | some m => exact .nothing (by rw [runOn_missingClass_of_registered hm])
  | none => exact .nothing (by rw [runOn_missingClass hm]; rfl)

theorem loadAnnotation_touches (hs : s.Sound) (hc : s.Serves c) (record : AnnotationRecord) :
    Touches (c.Searched (.parse record.className)) (c.loadAnnotation record) s := by
  apply (findRecord_touches hs hc _).thenNothing
  intro found t _
  cases found with
  | some found => exact .pure' _ t
  | none =>
    dsimp only
    rw [map_eq_pure_bind, bind_assoc]
    exact (missingClass_touches c _ 0 t).afterNothing fun m u _ => .pure' _ u

theorem annotations_touch (hs : s.Sound) (hc : s.Serves c) (records : List AnnotationRecord) :
    Touches (fun f => ∃ r ∈ records, c.Searched (.parse r.className) f)
      (records.mapM c.loadAnnotation) s :=
  Touches.mapM Store.Grows.refl fun record _ _ ht =>
    ⟨(loadAnnotation_keeps (ht.sound hs) (ht.knows_iff.2 hc.knows) record).grows,
      loadAnnotation_touches (ht.sound hs) (ht.serves hc) record⟩

/-- What reading a class looks into: nothing when the class is remembered, else the parts that it is
searched in and those of its annotations. -/
def Read (c : Services) (s : Store) (id : ClassId) (f : StoredFragment) : Prop :=
  s.Unasked c id ∧ (c.Searched id f ∨ c.Annotated id f)

theorem makeAnswer_touches (hs : s.Sound) (hc : s.Serves c) (id : ClassId) :
    Touches (fun f => c.Searched id f ∨ c.Annotated id f) (c.makeAnswer id) s := by
  refine (findRecord_touches hs hc id).bind (fun _ => .inl) fun found t hfound => ?_
  obtain ⟨hmeans, ht⟩ := (findRecord_answers hs hc.knows id).value_of_ok hfound
  rw [Store.current_of_live hc.live] at hmeans
  cases found with
  | none =>
    refine ⟨_, .pure' none t, fun f => or_congr_right (iff_false_intro ?_)⟩
    rintro ⟨g, record, hrecord, -⟩
    cases hmeans.symm.trans hrecord
  | some found =>
    obtain ⟨g, record⟩ := found
    have hannotated (f : StoredFragment) : c.Annotated id f ↔
        ∃ r ∈ record.annotations, c.Searched (.parse r.className) f := by
      constructor
      · rintro ⟨g', record', hrecord, hf⟩
        obtain ⟨-, rfl⟩ := Prod.mk.inj (Option.some.inj (Except.ok.inj (hmeans.symm.trans hrecord)))
        exact hf
      · exact fun hf => ⟨g, record, hmeans, hf⟩
    refine ⟨_, ?_, fun f => or_congr_right (hannotated f)⟩
    dsimp only
    rw [map_eq_pure_bind, makeClass, bind_assoc]
    have hannotations := annotations_touch (ht.sound hs) (ht.toGrows.serves hc) record.annotations
    exact hannotations.thenNothing fun annotations u _ => .nothing rfl

theorem readClass_touches (hs : s.Sound) (hc : s.Serves c) (id : ClassId) :
    Touches (c.Read s id) (c.readClass id) s := by
  by_cases h : ∃ answer, s.Remembers c id answer
  · obtain ⟨answer, h⟩ := h
    refine (Touches.nothing ?_).congr fun f => iff_false_intro fun hf => hf.1 answer h
    rw [runOn_readClass_of_remembers h]
  · have hnone : s.Unasked c id := not_exists.1 h
    have hopened := (Store.Change.opened hc.knows hnone).grows
    have hmake : Touches (fun f => c.Searched id f ∨ c.Annotated id f) (c.makeAnswer id)
      (c.setCell id none s) := makeAnswer_touches (hopened.sound hs) (hopened.serves hc) id
    refine Touches.congr ?_ fun f => and_iff_right hnone
    refine .of_runOn (runOn_readClass_of_not hnone) ?_
    refine (Touches.nothing (q := modify (c.setCell id none)) rfl).afterNothing fun _ t ht => ?_
    obtain ⟨-, rfl⟩ := Prod.mk.inj ht
    exact hmake.thenNothing fun answer t _ => .nothing rfl

end Services

end SymbolAtlas
