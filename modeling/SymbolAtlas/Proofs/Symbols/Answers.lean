import SymbolAtlas.Symbols.Store

/-!
# Runs of queries

What a query does to a store, step by step, and how the answer of a query follows from the answers
of its parts. `Answers R q s shown v` says that `q`, asked of the store `s`, answers `v` as `shown`,
and leads to a store that is related to `s` by `R`.
-/

namespace SymbolAtlas

namespace Query

variable {α β γ δ : Type} {s : Store}

@[simp] theorem runOn_pure (a : α) (s : Store) : (pure a : Query α).runOn s = (.ok a, s) :=
  rfl

@[simp] theorem runOn_ofExcept (r : Except LoadError α) (s : Store) : (ofExcept r).runOn s = (r, s) :=
  rfl

theorem runOn_bind (q : Query α) (f : α → Query β) (s : Store) :
    (q >>= f).runOn s = match q.runOn s with
      | (.ok a, t) => (f a).runOn t
      | (.error e, t) => (.error e, t) := by
  change (ExceptT.bind q f).run s = _
  simp only [ExceptT.bind, ExceptT.run_mk]
  change (match q s with | (a, t) => ExceptT.bindCont f a t) = _
  change _ = match q s with
      | (.ok a, t) => (f a) t
      | (.error e, t) => (.error e, t)
  rcases q s with ⟨a | a, t⟩ <;> rfl

theorem runOn_bind_ok {q : Query α} {f : α → Query β} {t : Store} {a : α}
    (h : q.runOn s = (.ok a, t)) : (q >>= f).runOn s = (f a).runOn t := by
  rw [runOn_bind, h]

theorem runOn_bind_eq_ok {q : Query α} {f : α → Query β} {b : β} {u : Store}
    (h : (q >>= f).runOn s = (.ok b, u)) :
    ∃ a t, q.runOn s = (.ok a, t) ∧ (f a).runOn t = (.ok b, u) := by
  rw [runOn_bind] at h
  rcases hq : q.runOn s with ⟨e | a, t⟩
  · rw [hq] at h
    cases (Prod.mk.inj h).1
  · rw [hq] at h
    exact ⟨a, t, rfl, h⟩

theorem runOn_bind_eq_error {q : Query α} {f : α → Query β} {e : LoadError} {u : Store}
    (h : (q >>= f).runOn s = (.error e, u)) :
    q.runOn s = (.error e, u) ∨ ∃ a t, q.runOn s = (.ok a, t) ∧ (f a).runOn t = (.error e, u) := by
  rw [runOn_bind] at h
  rcases hq : q.runOn s with ⟨e' | a, t⟩
  · rw [hq] at h
    obtain ⟨he, rfl⟩ := Prod.mk.inj h
    rw [Except.error.inj he]
    exact .inl rfl
  · rw [hq] at h
    exact .inr ⟨a, t, rfl, h⟩

@[simp] theorem runOn_get_bind (f : Store → Query α) (s : Store) :
    (get >>= f).runOn s = (f s).runOn s :=
  runOn_bind_ok rfl

@[simp] theorem runOn_modify_bind (g : Store → Store) (f : PUnit → Query α) (s : Store) :
    (modify g >>= f).runOn s = (f ⟨⟩).runOn (g s) :=
  runOn_bind_ok rfl

@[simp] theorem runOn_fresh_bind (f : Identity → Query α) (s : Store) :
    (fresh >>= f).runOn s =
      (f s.nextIdentity).runOn { s with nextIdentity := s.nextIdentity + 1 } :=
  runOn_bind_ok rfl

/-- The query `q`, asked of `s`, leads to a store that `R` allows. -/
def Keeps (R : Store → Store → Prop) (q : Query α) (s : Store) : Prop :=
  R s (q.runOn s).2

theorem Keeps.leads {R : Store → Store → Prop} {q : Query α} {r : Except LoadError α} {t : Store}
    (h : Keeps R q s) (hrun : q.runOn s = (r, t)) : R s t := by
  rwa [Keeps, hrun] at h

theorem Keeps.bind {R : Store → Store → Prop} [Trans R R R] {q : Query α} {f : α → Query β}
    (hq : Keeps R q s) (hf : ∀ a t, R s t → q.runOn s = (.ok a, t) → Keeps R (f a) t) :
    Keeps R (q >>= f) s := by
  rw [Keeps, runOn_bind]
  rw [Keeps] at hq
  rcases hrun : q.runOn s with ⟨e | a, t⟩
  · rwa [hrun] at hq
  · rw [hrun] at hq
    exact Trans.trans hq (hf a t hq hrun)

section

variable {R : Store → Store → Prop}

theorem Keeps.firstAnswer [Trans R R R] {ι : Type} {ask : ι → Query (Option α)} (hR : ∀ s, R s s)
    {items : List ι} (h : ∀ i ∈ items, ∀ t, R s t → Keeps R (ask i) t) :
    Keeps R (Query.firstAnswer ask items) s := by
  induction items generalizing s with
  | nil => exact hR s
  | cons i rest ih =>
    apply (h i List.mem_cons_self s (hR s)).bind
    intro a t ht _
    cases a with
    | some a => exact hR t
    | none => exact ih fun j hj u hu => h j (List.mem_cons_of_mem i hj) u (Trans.trans ht hu)

theorem Keeps.mapM [Trans R R R] {ι : Type} {ask : ι → Query α} (hR : ∀ s, R s s) {items : List ι}
    (h : ∀ i ∈ items, ∀ t, R s t → Keeps R (ask i) t) : Keeps R (items.mapM ask) s := by
  induction items generalizing s with
  | nil => exact hR s
  | cons i rest ih =>
    rw [List.mapM_cons]
    apply (h i List.mem_cons_self s (hR s)).bind
    intro a t ht _
    have hrest := ih fun j hj u hu => h j (List.mem_cons_of_mem i hj) u (Trans.trans ht hu)
    exact hrest.bind fun as u _ _ => hR u

end

/-- The query `q`, asked of `s`, answers `v` when answers are `shown`, and leads to a store that `R`
allows. -/
structure Answers (R : Store → Store → Prop) (q : Query α) (s : Store) (shown : α → β)
    (v : Except LoadError β) : Prop where
  leads : R s (q.runOn s).2
  value : (q.runOn s).1.map shown = v

namespace Answers

variable {R : Store → Store → Prop} {q : Query α} {shown : α → β} {v : Except LoadError β}

theorem keeps (h : Answers R q s shown v) : Keeps R q s :=
  h.leads

theorem runOn_eq {b : β} (h : Answers R q s shown (.ok b)) :
    ∃ a t, q.runOn s = (.ok a, t) ∧ shown a = b ∧ R s t := by
  obtain ⟨hleads, hvalue⟩ := h
  rcases hrun : q.runOn s with ⟨e | a, t⟩
  · rw [hrun] at hvalue
    cases hvalue
  · rw [hrun] at hleads hvalue
    exact ⟨a, t, rfl, Except.ok.inj hvalue, hleads⟩

theorem value_of_ok {a : α} {t : Store} (h : Answers R q s shown v) (hrun : q.runOn s = (.ok a, t)) :
    v = .ok (shown a) ∧ R s t := by
  obtain ⟨hleads, hvalue⟩ := h
  rw [hrun] at hleads hvalue
  exact ⟨hvalue.symm, hleads⟩

theorem mono {R' : Store → Store → Prop} (h : Answers R q s shown v)
    (hR : ∀ t, R s t → R' s t) : Answers R' q s shown v :=
  ⟨hR _ h.leads, h.value⟩

theorem pure' (hR : R s s) (a : α) : Answers R (pure a) s shown (.ok (shown a)) :=
  ⟨hR, rfl⟩

/-- What is asked next may rely on all that the first query keeps, and keep less. -/
theorem bindVia [Trans R R R] {R' : Store → Store → Prop} {f : α → Query γ} {shown' : γ → δ}
    {w : β → Except LoadError δ} (hR : ∀ t, R' s t → R s t) (hq : Answers R' q s shown v)
    (hf : ∀ a t, R' s t → v = .ok (shown a) → Answers R (f a) t shown' (w (shown a))) :
    Answers R (q >>= f) s shown' (v >>= w) := by
  have hleads := hq.leads
  have hvalue := hq.value
  have hrun := runOn_bind q f s
  rcases hqs : q.runOn s with ⟨r, t⟩
  rw [hqs] at hleads hvalue hrun
  subst hvalue
  cases r with
  | error e => exact ⟨by rw [hrun]; exact hR t hleads, by rw [hrun]; rfl⟩
  | ok a =>
    have hfa := hf a t hleads rfl
    exact ⟨by rw [hrun]; exact Trans.trans (hR t hleads) hfa.leads, by rw [hrun]; exact hfa.value⟩

theorem bind [Trans R R R] {f : α → Query γ} {shown' : γ → δ} {w : β → Except LoadError δ}
    (hq : Answers R q s shown v)
    (hf : ∀ a t, R s t → v = .ok (shown a) → Answers R (f a) t shown' (w (shown a))) :
    Answers R (q >>= f) s shown' (v >>= w) :=
  bindVia (fun _ => id) hq hf

theorem map {f : α → γ} {g : β → δ} {shown' : γ → δ} (hq : Answers R q s shown v)
    (hfg : ∀ a, shown' (f a) = g (shown a)) : Answers R (f <$> q) s shown' (g <$> v) := by
  have hrun : (f <$> q).runOn s = ((q.runOn s).1.map f, (q.runOn s).2) := by
    rw [map_eq_pure_bind, runOn_bind]
    rcases q.runOn s with ⟨r | a, t⟩ <;> rfl
  refine ⟨by rw [hrun]; exact hq.leads, ?_⟩
  rw [hrun, ← hq.value]
  rcases q.runOn s with ⟨r | a, t⟩
  · rfl
  · exact congrArg Except.ok (hfg a)

/-- A query whose answer is known adds nothing to what is meant. -/
theorem bindKnown [Trans R R R] {b : β} {f : α → Query γ} {shown' : γ → δ} {w : Except LoadError δ}
    (hq : Answers R q s shown (.ok b))
    (hf : ∀ a t, R s t → shown a = b → Answers R (f a) t shown' w) :
    Answers R (q >>= f) s shown' w :=
  bind (w := fun _ => w) hq fun a t ht ha => hf a t ht (Except.ok.inj ha).symm

theorem bindOk {a : α} {f : α → Query γ} {shown' : γ → δ} {w : Except LoadError δ}
    (hq : q.runOn s = (.ok a, s)) (h : Answers R (f a) s shown' w) :
    Answers R (q >>= f) s shown' w :=
  ⟨by rw [runOn_bind_ok hq]; exact h.leads, by rw [runOn_bind_ok hq]; exact h.value⟩

theorem bindGet {f : Store → Query α} (h : Answers R (f s) s shown v) :
    Answers R (get >>= f) s shown v :=
  ⟨by rw [runOn_get_bind]; exact h.leads, by rw [runOn_get_bind]; exact h.value⟩

theorem bindModify [Trans R R R] {g : Store → Store} {f : PUnit → Query α} (hg : R s (g s))
    (h : Answers R (f ⟨⟩) (g s) shown v) : Answers R (modify g >>= f) s shown v :=
  ⟨by rw [runOn_modify_bind]; exact Trans.trans hg h.leads,
    by rw [runOn_modify_bind]; exact h.value⟩

theorem bindFresh [Trans R R R] {f : Identity → Query α}
    (hg : R s { s with nextIdentity := s.nextIdentity + 1 })
    (h : Answers R (f s.nextIdentity) { s with nextIdentity := s.nextIdentity + 1 } shown v) :
    Answers R (fresh >>= f) s shown v :=
  ⟨by rw [runOn_fresh_bind]; exact Trans.trans hg h.leads,
    by rw [runOn_fresh_bind]; exact h.value⟩

/-- What holds of the search for an answer at each item holds of the search through all of them. -/
theorem firstAnswer [Trans R R R] {ι : Type} {ask : ι → Query (Option α)}
    {means : ι → Except LoadError (Option β)} {shown : α → β} (hR : ∀ s, R s s) {items : List ι}
    (h : ∀ i ∈ items, ∀ t, R s t → Answers R (ask i) t (Option.map shown) (means i)) :
    Answers R (Query.firstAnswer ask items) s (Option.map shown) (items.findSomeM? means) := by
  induction items generalizing s with
  | nil => exact pure' (hR s) none
  | cons i rest ih =>
    apply (h i List.mem_cons_self s (hR s)).bind
    intro a t ht _
    cases a with
    | some a => exact pure' (hR t) (some a)
    | none => exact ih fun j hj u hu => h j (List.mem_cons_of_mem i hj) u (Trans.trans ht hu)

/-- The same where answers are shown as they are. -/
theorem firstAnswer_same [Trans R R R] {ι : Type} {ask : ι → Query (Option α)}
    {means : ι → Except LoadError (Option α)} (hR : ∀ s, R s s) {items : List ι}
    (h : ∀ i ∈ items, ∀ t, R s t → Answers R (ask i) t id (means i)) :
    Answers R (Query.firstAnswer ask items) s id (items.findSomeM? means) := by
  rw [← Option.map_id] at h ⊢
  exact firstAnswer hR h

theorem mapM [Trans R R R] {ι : Type} {ask : ι → Query α} {means : ι → Except LoadError β}
    {shown : α → β} (hR : ∀ s, R s s) {items : List ι}
    (h : ∀ i ∈ items, ∀ t, R s t → Answers R (ask i) t shown (means i)) :
    Answers R (items.mapM ask) s (List.map shown) (items.mapM means) := by
  induction items generalizing s with
  | nil => exact pure' (hR s) []
  | cons i rest ih =>
    rw [List.mapM_cons, List.mapM_cons]
    apply (h i List.mem_cons_self s (hR s)).bind
    intro a t ht _
    have hrest := ih fun j hj u hu => h j (List.mem_cons_of_mem i hj) u (Trans.trans ht hu)
    exact hrest.bind fun as u _ _ => pure' (hR u) (a :: as)

end Answers

end Query

end SymbolAtlas
