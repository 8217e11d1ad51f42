import SymbolAtlas.Proofs.Symbols.Change

namespace SymbolAtlas

open Query

/-- An answer of the query is given again by every later store. -/
def Query.Lasts {α : Type} (q : Query (Option α)) (s : Store) : Prop :=
  ∀ a t, q.runOn s = (.ok (some a), t) → ∀ u, t.Grows u → ∃ v, q.runOn u = (.ok (some a), v)

/-- The services are known, and their provider is in use. -/
structure Store.Serves (s : Store) (c : Services) : Prop where
  knows : s.Knows c
  live : s.hasEnded c.provider.identity = false

theorem Store.Grows.serves {s t : Store} {c : Services} (h : s.Grows t) (hc : s.Serves c) :
    t.Serves c :=
  ⟨h.knows_iff.2 hc.knows, by rw [h.hasEnded]; exact hc.live⟩

namespace StoredFragment

variable {s : Store} {c : Services} {f : StoredFragment}

theorem contributed_keeps (hs : s.Sound) (hf : s.Holds c f) (name : Name) :
    Keeps Store.Changes (f.contributed name) s := by
  apply (declares_keeps hs hf name).bind
  intro declares t ht _
  have hs' := ht.grows.sound hs
  have hf' := ht.grows.holds hf
  cases declares with
  | false => exact .refl t
  | true =>
    rw [if_pos rfl, Keeps, runOn_bind_ok (runOn_services hs' hf')]
    exact Services.readClass_keeps hs' hf'.knows _

theorem contributed_answers (hs : s.Sound) (hc : s.Serves c) (hf : s.Holds c f) (name : Name) :
    Answers Store.Grows (f.contributed name) s (Option.map ClassDescriptor.anonymous)
      (f.meaning c name) := by
  have hdeclares := declares_answers hs hf name
  apply Answers.bindVia (fun _ => Store.Reads.toGrows) hdeclares
  intro declares t ht _
  have hs' := ht.sound hs
  have hc' := ht.serves hc
  cases declares with
  | false => exact .pure' (.refl t) none
  | true =>
    apply Answers.bindOk (runOn_services hs' (ht.holds hf))
    exact Services.readClass_answers hs' hc'.knows hc'.live _

/-- A class that a part contributes is one that it declares, and is remembered. -/
theorem contributed_some (hs : s.Sound) (hf : s.Holds c f) {name : Name} {d : ClassDescriptor}
    {t : Store} (h : (f.contributed name).runOn s = (.ok (some d), t)) :
    f.hasRecord c name = .ok true ∧ t.Remembers c ⟨f.package, name⟩ (some d) := by
  obtain ⟨declares, s', hdeclares, hread⟩ := runOn_bind_eq_ok h
  obtain ⟨hmeans, hs'⟩ := (declares_answers hs hf name).value_of_ok hdeclares
  cases declares with
  | false => cases (Prod.mk.inj hread).1
  | true =>
    rw [if_pos rfl, runOn_bind_ok (runOn_services (hs'.sound hs) (hs'.toGrows.holds hf))] at hread
    exact ⟨hmeans, Services.remembers_of_readClass hread⟩

theorem contributed_lasts (hs : s.Sound) (hf : s.Holds c f) (name : Name) :
    (f.contributed name).Lasts s := by
  intro d t hd u hu
  obtain ⟨hmeans, hremembers⟩ := contributed_some hs hf hd
  have hgrows : s.Grows u := ((contributed_keeps hs hf name).leads hd).grows.trans hu
  have hagain := declares_answers (hgrows.sound hs) (hgrows.holds hf) name
  rw [hmeans] at hagain
  obtain ⟨again, v, hrun, hagain, hv⟩ := hagain.runOn_eq
  obtain rfl : again = true := hagain
  rw [contributed, runOn_bind_ok hrun, if_pos rfl,
    runOn_bind_ok (runOn_services (hv.sound (hgrows.sound hs)) (hv.toGrows.holds (hgrows.holds hf))),
    Services.runOn_readClass_of_remembers (hv.classes _ _ _ (hu.classes _ _ _ hremembers))]
  exact ⟨v, rfl⟩

end StoredFragment

namespace AliasFragment

variable {s : Store} {c : Services} {targets : List StoredFragment}

theorem go_keeps (hs : s.Sound) (hf : ∀ f ∈ targets, s.Holds c f) (name : Name) :
    Keeps Store.Changes (contributed.go name targets) s := by
  induction targets generalizing s with
  | nil => exact .refl s
  | cons f rest ih =>
    have hmem := hf f List.mem_cons_self
    apply (StoredFragment.declares_keeps hs hmem name).bind
    intro declares t ht _
    have ht := ht.grows
    cases declares with
    | false => exact ih (ht.sound hs) fun g hg => ht.holds (hf g (List.mem_cons_of_mem f hg))
    | true => exact StoredFragment.contributed_keeps (ht.sound hs) (ht.holds hmem) name

theorem go_answers (hs : s.Sound) (hc : s.Serves c) (hf : ∀ f ∈ targets, s.Holds c f) (name : Name) :
    Answers Store.Grows (contributed.go name targets) s (Option.map ClassDescriptor.anonymous)
      (meaning.go c name targets) := by
  induction targets generalizing s with
  | nil => exact .pure' (.refl s) none
  | cons f rest ih =>
    have hmem := hf f List.mem_cons_self
    have hdeclares := StoredFragment.declares_answers hs hmem name
    apply Answers.bindVia (fun _ => Store.Reads.toGrows) hdeclares
    intro declares t ht _
    have ht := ht.toGrows
    cases declares with
    | false =>
      exact ih (ht.sound hs) (ht.serves hc) fun g hg => ht.holds (hf g (List.mem_cons_of_mem f hg))
    | true =>
      exact StoredFragment.contributed_answers (ht.sound hs) (ht.serves hc) (ht.holds hmem) name

theorem go_lasts (hs : s.Sound) (hf : ∀ f ∈ targets, s.Holds c f) (name : Name) :
    (contributed.go name targets).Lasts s := by
  induction targets generalizing s with
  | nil => exact fun d t h => by cases (Prod.mk.inj h).1
  | cons f rest ih =>
    intro d t hd u hu
    have hmem := hf f List.mem_cons_self
    obtain ⟨declares, s', hdeclares, hgo⟩ := runOn_bind_eq_ok hd
    obtain ⟨hmeans, hs'⟩ := (StoredFragment.declares_answers hs hmem name).value_of_ok hdeclares
    have hgrows : s.Grows u := ((go_keeps hs hf name).leads hd).grows.trans hu
    have hagain := StoredFragment.declares_answers (hgrows.sound hs) (hgrows.holds hmem) name
    rw [hmeans] at hagain
    obtain ⟨again, v, hrun, rfl, hv⟩ := hagain.runOn_eq
    rw [contributed.go, runOn_bind_ok hrun]
    cases again with
    | false =>
      exact ih (hs'.sound hs) (fun g hg => hs'.toGrows.holds (hf g (List.mem_cons_of_mem f hg)))
        d t hgo v (hu.trans hv.toGrows)
    | true =>
      exact StoredFragment.contributed_lasts (hs'.sound hs) (hs'.toGrows.holds hmem) name d t hgo v
        (hu.trans hv.toGrows)

/-- A class that an alias shows is remembered as the class of a target. -/
theorem go_some (hs : s.Sound) (hf : ∀ f ∈ targets, s.Holds c f) {name : Name} {d : ClassDescriptor}
    {t : Store} (h : (contributed.go name targets).runOn s = (.ok (some d), t)) :
    ∃ f ∈ targets, t.Remembers c ⟨f.package, name⟩ (some d) := by
  induction targets generalizing s with
  | nil => cases (Prod.mk.inj h).1
  | cons f rest ih =>
    have hmem := hf f List.mem_cons_self
    obtain ⟨declares, s', hdeclares, hgo⟩ := runOn_bind_eq_ok h
    have hs' := ((StoredFragment.declares_keeps hs hmem name).leads hdeclares).grows
    cases declares with
    | false =>
      obtain ⟨g, hg, hremembers⟩ :=
        ih (hs'.sound hs) (fun g hg => hs'.holds (hf g (List.mem_cons_of_mem f hg))) hgo
      exact ⟨g, List.mem_cons_of_mem f hg, hremembers⟩
    | true =>
      have hcontributed := StoredFragment.contributed_some (hs'.sound hs) (hs'.holds hmem) hgo
      exact ⟨f, List.mem_cons_self, hcontributed.2⟩

end AliasFragment

namespace ExportedFragment

variable {s : Store}

theorem runOn_placeholder_of_placed {f : ExportedFragment} {declaration : QualName}
    {d : ClassDescriptor} (h : s.placeholders.get? (f.identity, declaration) = some d) :
    (f.placeholder declaration).runOn s = (.ok d, s) := by
  rw [placeholder, runOn_get_bind, h]
  rfl

theorem runOn_placeholder {f : ExportedFragment} {declaration : QualName}
    (h : s.placeholders.get? (f.identity, declaration) = none) :
    (f.placeholder declaration).runOn s =
      (.ok (.ofDeclaration s.nextIdentity declaration), s.placed f declaration) := by
  rw [placeholder, runOn_get_bind, h]
  rfl

theorem placeholder_keeps (f : ExportedFragment) (declaration : QualName) :
    Keeps Store.Changes (f.placeholder declaration) s := by
  rw [Keeps]
  cases hp : s.placeholders.get? (f.identity, declaration) with
  | some d =>
    rw [runOn_placeholder_of_placed hp]
    exact .refl s
  | none =>
    rw [runOn_placeholder hp]
    exact (Store.Change.placed hp).changes

theorem placeholder_answers (hs : s.Sound) (f : ExportedFragment) (declaration : QualName) :
    Answers Store.Grows (f.placeholder declaration) s ClassDescriptor.anonymous
      (.ok (.ofDeclaration 0 declaration)) := by
  refine ⟨(placeholder_keeps f declaration).grows, ?_⟩
  cases hp : s.placeholders.get? (f.identity, declaration) with
  | some d =>
    rw [runOn_placeholder_of_placed hp]
    exact congrArg Except.ok (hs.placeholders _ _ d hp)
  | none =>
    rw [runOn_placeholder hp]
    rfl

theorem placeholder_kept {f : ExportedFragment} {declaration : QualName} {d : ClassDescriptor}
    {t : Store} (h : (f.placeholder declaration).runOn s = (.ok d, t)) :
    t.placeholders.get? (f.identity, declaration) = some d := by
  cases hp : s.placeholders.get? (f.identity, declaration) with
  | some d' =>
    rw [runOn_placeholder_of_placed hp] at h
    obtain ⟨hd, rfl⟩ := Prod.mk.inj h
    rw [hp, Except.ok.inj hd]
  | none =>
    rw [runOn_placeholder hp] at h
    obtain ⟨hd, rfl⟩ := Prod.mk.inj h
    rw [Store.placed, Table.get?_set, if_pos rfl, Except.ok.inj hd]

theorem placeholder_lasts (f : ExportedFragment) (declaration : QualName) :
    (some <$> f.placeholder declaration).Lasts s := by
  intro d t h u hu
  rw [map_eq_pure_bind] at h ⊢
  obtain ⟨d', t', hplaceholder, hpure⟩ := runOn_bind_eq_ok h
  obtain ⟨hd, rfl⟩ := Prod.mk.inj hpure
  obtain rfl := Option.some.inj (Except.ok.inj hd)
  rw [runOn_bind_ok (runOn_placeholder_of_placed (hu.placeholders _ _ (placeholder_kept hplaceholder)))]
  exact ⟨u, rfl⟩

end ExportedFragment

end SymbolAtlas
