import SymbolAtlas.Proofs.Symbols.Passes

/-!
# Why look-ups fail

A look-up in a module fails for one reason only: a part of the module cannot be read. It fails with
the error of that part, which names the library that the part belongs to. So nothing that a module with
services can be asked tells that the module or a part of it has none.

* `Query.Blames`: the errors that a query can fail with;
* `Services.Unreadable`: the errors of the parts of a module;
* `Module.Asks`: what a module and its fragments can be asked;
* `Module.Asks.blames`: all of it fails with the errors of the parts.
-/

namespace SymbolAtlas

open Query Relation

/-- The query, asked of `s`, does what look-ups do, and fails with errors only that `P` holds of. -/
structure Query.Blames {α : Type} (P : LoadError → Prop) (q : Query α) (s : Store) : Prop where
  keeps : Keeps Store.Grows q s
  error : ∀ e t, q.runOn s = (.error e, t) → P e

namespace Query.Blames

variable {α β ι : Type} {P : LoadError → Prop} {q : Query α} {f : α → Query β} {s : Store}

theorem of_runOn {q' : Query α} (h : q.runOn s = q'.runOn s) (h' : Blames P q' s) : Blames P q s := by
  obtain ⟨hkeeps, herror⟩ := h'
  rw [Keeps, ← h] at hkeeps
  rw [← h] at herror
  exact ⟨hkeeps, herror⟩

/-- A query that answers blames nothing. -/
theorem nothing {a : α} {t : Store} (h : q.runOn s = (.ok a, t)) (ht : s.Grows t) : Blames P q s where
  keeps := by rwa [Keeps, h]
  error := fun e u hu => by cases (Prod.mk.inj (h.symm.trans hu)).1

theorem pure' (a : α) (s : Store) : Blames P (pure a) s :=
  nothing (runOn_pure a s) (.refl s)

theorem bind (hq : Blames P q s) (hf : ∀ a t, s.Grows t → Blames P (f a) t) :
    Blames P (q >>= f) s where
  keeps := hq.keeps.bind fun a t ht _ => (hf a t ht).keeps
  error := by
    intro e u h
    rcases runOn_bind_eq_error h with h | ⟨a, t, hrun, h⟩
    · exact hq.error e u h
    · exact (hf a t (hq.keeps.leads hrun)).error e u h

theorem bindOk {a : α} (hq : q.runOn s = (.ok a, s)) (h : Blames P (f a) s) : Blames P (q >>= f) s :=
  h.of_runOn (runOn_bind_ok hq)

theorem returns {g : α → β} (hq : Blames P q s) : Blames P (do return g (← q)) s :=
  hq.bind fun a t _ => pure' (g a) t

theorem map {g : α → β} (hq : Blames P q s) : Blames P (g <$> q) s := by
  rw [map_eq_pure_bind]
  exact hq.returns

theorem firstAnswer {ask : ι → Query (Option α)} {items : List ι}
    (h : ∀ i ∈ items, ∀ t, s.Grows t → Blames P (ask i) t) :
    Blames P (Query.firstAnswer ask items) s := by
  induction items generalizing s with
  | nil => exact pure' none s
  | cons i rest ih =>
    apply (h i List.mem_cons_self s (.refl s)).bind
    intro answer t ht
    cases answer with
    | some a => exact pure' (some a) t
    | none => exact ih fun j hj u hu => h j (List.mem_cons_of_mem i hj) u (ht.trans hu)

theorem mapM {ask : ι → Query α} {items : List ι}
    (h : ∀ i ∈ items, ∀ t, s.Grows t → Blames P (ask i) t) : Blames P (items.mapM ask) s := by
  induction items generalizing s with
  | nil => exact pure' [] s
  | cons i rest ih =>
    rw [List.mapM_cons]
    apply (h i List.mem_cons_self s (.refl s)).bind
    intro a t ht
    exact (ih fun j hj u hu => h j (List.mem_cons_of_mem i hj) u (ht.trans hu)).returns

end Query.Blames

/-! ## Parts -/

/-- The error is that of a part that these services cannot read. -/
def Services.Unreadable (c : Services) (e : LoadError) : Prop :=
  ∃ f ∈ c.provider.storedFragments, f.reading c = .error e

namespace StoredFragment

variable {s : Store} {c : Services} {f : StoredFragment}

/-- What keeps a part from being read is an error of its library. -/
theorem library_of_reading {e : LoadError} (h : f.reading c = .error e) :
    e.library = some f.library.name := by
  cases hbytes : f.library.payload f.package f.part with
  | error fault =>
    rw [reading, hbytes] at h
    obtain rfl := Except.error.inj h
    rfl
  | ok bytes =>
    cases hdecoder : c.decoder f.package bytes with
    | error message =>
      rw [reading_of_error hbytes hdecoder] at h
      obtain rfl := Except.error.inj h
      rfl
    | ok payload =>
      rw [reading_of_ok hbytes hdecoder] at h
      split at h
      · obtain rfl := Except.error.inj h
        rfl
      · cases h

theorem services_blame (hs : s.Sound) (hf : s.Holds c f) : Blames c.Unreadable f.services s :=
  .nothing (runOn_services hs hf) (.refl s)

theorem scope_blames (hs : s.Sound) (hf : s.Holds c f) : Blames c.Unreadable f.scope s where
  keeps := (f.scope_keeps hs hf).grows
  error := fun e t h => ⟨f, hf.mem, by rw [← f.scope_eq_reading hs hf, h]⟩

theorem declares_blames (hs : s.Sound) (hf : s.Holds c f) (name : Name) :
    Blames c.Unreadable (f.declares name) s :=
  (scope_blames hs hf).returns.returns

end StoredFragment

/-! ## Classes -/

namespace Services

variable {s : Store} {c : Services}

theorem findRecord_blames (hs : s.Sound) (hc : s.Knows c) (id : ClassId) :
    Blames c.Unreadable (c.findRecord id) s := by
  apply Blames.bindOk (runOn_liveFragments s c id.package)
  apply Blames.firstAnswer
  intro f hf t ht
  have hf := mem_of_mem_current hf
  cases f with
  | stored f =>
    have hscope := f.scope_blames (ht.sound hs) (ht.holds (hc.holds hf))
    exact hscope.returns.returns
  | aliasing f => exact .pure' none t
  | exported f => exact .pure' none t

theorem missingClass_blames (hs : s.Sound) (c : Services) (id : ClassId) (n : UInt32)
    (P : LoadError → Prop) : Blames P (c.missingClass id n) s := by
  obtain ⟨m, t, hrun, -, ht⟩ := (missingClass_answers hs c id n).runOn_eq
  exact .nothing hrun ht.toGrows

theorem loadAnnotation_blames (hs : s.Sound) (hc : s.Knows c) (record : AnnotationRecord) :
    Blames c.Unreadable (c.loadAnnotation record) s := by
  apply (findRecord_blames hs hc _).bind
  intro found t ht
  cases found with
  | some found => exact .pure' _ t
  | none =>
    dsimp only
    rw [map_eq_pure_bind, bind_assoc]
    exact (missingClass_blames (ht.sound hs) c _ 0 _).bind fun m u _ => .pure' _ u

theorem makeClass_blames (hs : s.Sound) (hc : s.Knows c) (id : ClassId) (record : ClassRecord) :
    Blames c.Unreadable (c.makeClass id record) s := by
  have hannotations : Blames c.Unreadable (record.annotations.mapM c.loadAnnotation) s :=
    .mapM fun a _ t ht => loadAnnotation_blames (ht.sound hs) (ht.knows_iff.2 hc) a
  apply hannotations.bind
  intro annotations t _
  have hcounts := (Store.Counts.tally t c.counters
    fun n => { n with classesRead := n.classesRead + 1 }).trans (.fresh _)
  exact .nothing rfl hcounts.reads.toGrows

theorem makeAnswer_blames (hs : s.Sound) (hc : s.Knows c) (id : ClassId) :
    Blames c.Unreadable (c.makeAnswer id) s := by
  apply (findRecord_blames hs hc id).bind
  intro found t ht
  cases found with
  | none => exact .pure' none t
  | some found => exact (makeClass_blames (ht.sound hs) (ht.knows_iff.2 hc) id found.2).map

theorem readClass_blames (hs : s.Sound) (hc : s.Knows c) (id : ClassId) :
    Blames c.Unreadable (c.readClass id) s where
  keeps := readClass_grows hs hc id
  error := by
    intro e u h
    by_cases hknown : ∃ answer, s.Remembers c id answer
    · obtain ⟨answer, hanswer⟩ := hknown
      rw [runOn_readClass_of_remembers hanswer] at h
      cases (Prod.mk.inj h).1
    · have hnone : s.Unasked c id := not_exists.1 hknown
      have hopened := (Store.Change.opened hc hnone).grows
      rw [runOn_readClass_of_not hnone, runOn_modify_bind] at h
      -- What is found is only written down, so it is the making that fails.
      rcases runOn_bind_eq_error h with h | ⟨answer, t, -, h⟩
      · exact (makeAnswer_blames (hopened.sound hs) (hopened.knows_iff.2 hc) id).error e u h
      · cases (Prod.mk.inj h).1

end Services

/-! ## Fragments -/

section

variable {s : Store} {c : Services}

theorem StoredFragment.contributed_blames {f : StoredFragment} (hs : s.Sound) (hf : s.Holds c f)
    (name : Name) : Blames c.Unreadable (f.contributed name) s := by
  apply (f.declares_blames hs hf name).bind
  intro declares t ht
  have hs' := ht.sound hs
  have hf' := ht.holds hf
  cases declares with
  | false => exact .pure' none t
  | true => exact .bindOk (runOn_services hs' hf') (Services.readClass_blames hs' hf'.knows _)

theorem AliasFragment.go_blames {targets : List StoredFragment} (hs : s.Sound)
    (hf : ∀ f ∈ targets, s.Holds c f) (name : Name) :
    Blames c.Unreadable (contributed.go name targets) s := by
  induction targets generalizing s with
  | nil => exact .pure' none s
  | cons f rest ih =>
    have hmem := hf f List.mem_cons_self
    apply (f.declares_blames hs hmem name).bind
    intro declares t ht
    cases declares with
    | false => exact ih (ht.sound hs) fun g hg => ht.holds (hf g (List.mem_cons_of_mem f hg))
    | true => exact f.contributed_blames (ht.sound hs) (ht.holds hmem) name

theorem ExportedFragment.placeholder_blames (hs : s.Sound) (f : ExportedFragment)
    (declaration : QualName) (P : LoadError → Prop) : Blames P (f.placeholder declaration) s := by
  obtain ⟨d, t, hrun, -, ht⟩ := (f.placeholder_answers hs declaration).runOn_eq
  exact .nothing hrun ht

theorem ExportedFragment.placeholderFor_blames (hs : s.Sound) (f : ExportedFragment)
    (declaration : QualName) (P : LoadError → Prop) : Blames P (f.placeholderFor declaration) s := by
  unfold placeholderFor
  split
  · exact (f.placeholder_blames hs declaration P).returns
  · exact .pure' none s

theorem Fragment.contributed_blames (hs : s.Sound) (hc : s.Knows c) {f : Fragment}
    (hf : f ∈ c.provider.fragments) (name : Name) : Blames c.Unreadable (f.contributed name) s := by
  cases f with
  | stored f => exact f.contributed_blames hs ⟨hc, Provider.stored_mem.1 hf⟩ name
  | aliasing a => exact AliasFragment.go_blames hs (fun f hm => ⟨hc, hs.targets c hc a hf f hm⟩) name
  | exported e =>
    change Blames c.Unreadable (e.contributed name) s
    unfold ExportedFragment.contributed
    split
    · exact (e.placeholder_blames hs _ _).returns
    · exact .pure' none s

theorem Fragment.classNames_blame (hs : s.Sound) (hc : s.Knows c) {f : Fragment}
    (hf : f ∈ c.provider.fragments) : Blames c.Unreadable f.classNames s := by
  cases f with
  | stored f => exact (f.scope_blames hs ⟨hc, Provider.stored_mem.1 hf⟩).returns
  | aliasing a =>
    refine (Blames.mapM fun f hm t ht => ?_).returns
    exact (f.scope_blames (ht.sound hs) (ht.holds ⟨hc, hs.targets c hc a hf f hm⟩)).returns
  | exported e => exact .pure' _ s

namespace Services

theorem findClass_blames (hs : s.Sound) (hc : s.Knows c) (id : ClassId) :
    Blames c.Unreadable (c.findClass id) s := by
  apply Blames.bindOk (runOn_liveFragments s c id.package)
  apply Blames.firstAnswer
  intro f hf t ht
  have hf := (Provider.mem_packageFragments.1 (mem_of_mem_current hf)).1
  exact Fragment.contributed_blames (ht.sound hs) (ht.knows_iff.2 hc) hf id.relative

theorem resolveClass_blames (hs : s.Sound) (hc : s.Knows c) (id : ClassId) :
    Blames c.Unreadable (c.resolveClass id) s := by
  apply (findClass_blames hs hc id).bind
  intro found t ht
  cases found with
  | some d => exact .pure' d t
  | none => exact (missingClass_blames (ht.sound hs) c id 0 _).returns

end Services

namespace Pass

variable {p : Pass} {id : ClassId} {m : Module}

theorem ask_blames (hs : s.Sound) (hc : s.Knows c) {f : Fragment} (hf : f ∈ p.fragments c id) :
    Blames c.Unreadable (p.ask id f) s := by
  have hmem := mem_fragments hf
  match p, f with
  | declared, .stored f => exact Fragment.contributed_blames hs hc hmem id.relative
  | aliased, .aliasing a => exact Fragment.contributed_blames hs hc hmem id.relative
  | forwardDeclared, .exported e =>
    rw [ask, exportedBy_eq]
    cases e.declarationFor id with
    | none => exact .pure' none s
    | some declaration => exact (e.placeholder_blames hs declaration _).map
  | declared, .aliasing _ | declared, .exported _ | aliased, .stored _ | aliased, .exported _
  | forwardDeclared, .stored _ | forwardDeclared, .aliasing _ => exact .pure' none s

theorem query_blames (hs : s.Sound) (hm : m.services? s = some c) :
    Blames c.Unreadable (p.query id m) s := by
  have hc := Module.knows_of_services? hm
  have hfirst : Blames c.Unreadable (firstAnswer (p.ask id) (p.fragments c id)) s :=
    .firstAnswer fun f hf t ht => ask_blames (ht.sound hs) (ht.knows_iff.2 hc) hf
  exact hfirst.map.of_runOn (runOn_query hm)

end Pass

end

/-! ## Modules -/

namespace Module

/-- What the module with the services `c` can be asked: itself, its fragments and its services, by any
program that asks one thing after the other. -/
inductive Asks (m : Module) (c : Services) : {α : Type} → Query α → Prop
  | services : m.Asks c m.services
  | components {f : StoredFragment} (hf : f ∈ c.provider.storedFragments) : m.Asks c f.services
  | scope {f : StoredFragment} (hf : f ∈ c.provider.storedFragments) : m.Asks c f.scope
  | classNames {f : Fragment} (hf : f ∈ c.provider.fragments) : m.Asks c f.classNames
  | contributed {f : Fragment} (hf : f ∈ c.provider.fragments) (name : Name) :
      m.Asks c (f.contributed name)
  | placeholderFor {f : ExportedFragment} (hf : .exported f ∈ c.provider.fragments)
      (declaration : QualName) : m.Asks c (f.placeholderFor declaration)
  | findRecord (id : ClassId) : m.Asks c (c.findRecord id)
  | missingClass (id : ClassId) (typeParameters : UInt32) : m.Asks c (c.missingClass id typeParameters)
  | loadAnnotation (record : AnnotationRecord) : m.Asks c (c.loadAnnotation record)
  | makeClass (id : ClassId) (record : ClassRecord) : m.Asks c (c.makeClass id record)
  | readClass (id : ClassId) : m.Asks c (c.readClass id)
  | findClass (id : ClassId) : m.Asks c (c.findClass id)
  | resolveClass (id : ClassId) : m.Asks c (c.resolveClass id)
  /-- A graph asks the module in each of its passes. -/
  | pass (p : Pass) (id : ClassId) : m.Asks c (p.query id m)
  | answer {α : Type} (a : α) : m.Asks c (pure a : Query α)
  | andThen {α β : Type} {q : Query α} {next : α → Query β} (hq : m.Asks c q)
      (hnext : ∀ a, m.Asks c (next a)) : m.Asks c (q >>= next)
  /-- What is asked of its services can be asked of the module. -/
  | through {α : Type} {q : Services → Query α} (h : m.Asks c (q c)) :
      m.Asks c (do q (← m.services))

/-- `t` is `s` after the module was asked, whatever was asked and whether or not it failed. -/
def Asked (m : Module) (c : Services) : Store → Store → Prop :=
  ReflTransGen fun s t => ∃ (α : Type) (q : Query α), m.Asks c q ∧ t = (q.runOn s).2

variable {s t : Store} {c : Services} {m : Module}

/-- **A module with services fails only where a part of it cannot be read.** -/
theorem Asks.blames {α : Type} {q : Query α} (h : m.Asks c q) (hs : s.Sound)
    (hm : m.services? s = some c) : Blames c.Unreadable q s := by
  induction h generalizing s with
  | services => exact .nothing (runOn_services hm) (.refl s)
  | components hf => exact StoredFragment.services_blame hs ⟨knows_of_services? hm, hf⟩
  | scope hf => exact StoredFragment.scope_blames hs ⟨knows_of_services? hm, hf⟩
  | classNames hf => exact Fragment.classNames_blame hs (knows_of_services? hm) hf
  | contributed hf name => exact Fragment.contributed_blames hs (knows_of_services? hm) hf name
  | placeholderFor _ declaration => exact ExportedFragment.placeholderFor_blames hs _ declaration _
  | findRecord id => exact Services.findRecord_blames hs (knows_of_services? hm) id
  | missingClass id n => exact Services.missingClass_blames hs c id n _
  | loadAnnotation record => exact Services.loadAnnotation_blames hs (knows_of_services? hm) record
  | makeClass id record => exact Services.makeClass_blames hs (knows_of_services? hm) id record
  | readClass id => exact Services.readClass_blames hs (knows_of_services? hm) id
  | findClass id => exact Services.findClass_blames hs (knows_of_services? hm) id
  | resolveClass id => exact Services.resolveClass_blames hs (knows_of_services? hm) id
  | pass p id => exact Pass.query_blames hs hm
  | answer a => exact .pure' a s
  | andThen _ _ ihq ihnext =>
    exact (ihq hs hm).bind fun a t ht => ihnext a (ht.sound hs) ((ht.services? m).trans hm)
  | through _ ih => exact .bindOk (runOn_services hm) (ih hs hm)

theorem Asked.grows (h : m.Asked c s t) (hs : s.Sound) (hm : m.services? s = some c) :
    s.Grows t := by
  induction h with
  | refl => exact .refl s
  | tail _ hstep ih =>
    obtain ⟨_, q, hq, rfl⟩ := hstep
    exact ih.trans (hq.blames (ih.sound hs) ((ih.services? m).trans hm)).keeps

end Module

end SymbolAtlas
