import SymbolAtlas.Proofs.Symbols.Finding
import SymbolAtlas.Proofs.Symbols.Populating

namespace SymbolAtlas

open Query

theorem Store.Reads.read_iff {s t : Store} {c : Services} {id : ClassId} {f : StoredFragment}
    (h : s.Reads t) : c.Read t id f ↔ c.Read s id f := by
  rw [Services.Read, Services.Read, Unasked, Unasked]
  simp only [Remembers, h.sameClasses]

namespace StoredFragment

variable {s t : Store} {c : Services} {f : StoredFragment} {name : Name}

/-- A part that is asked for a class looks into itself and, when it declares the class, where reading
the class does. -/
theorem contributed_touches (hs : s.Sound) (hc : s.Serves c) (hf : f ∈ c.provider.storedFragments)
    (name : Name) :
    Touches (fun g => g = f ∨ f.hasRecord c name = .ok true ∧ c.Read s ⟨f.package, name⟩ g)
      (f.contributed name) s := by
  have hholds : s.Holds c f := ⟨hc.knows, hf⟩
  refine (declares_touches hs hholds name).bind (fun _ => .inl) fun declares t hdeclares => ?_
  obtain ⟨hmeans, ht⟩ := (declares_answers hs hholds name).value_of_ok hdeclares
  cases declares with
  | false =>
    refine ⟨_, .pure' none t, fun g => or_congr_right (iff_false_intro fun h => ?_)⟩
    cases hmeans.symm.trans h.1
  | true =>
    have hservices := runOn_services (ht.sound hs) (ht.toGrows.holds hholds)
    have hread := Services.readClass_touches (ht.sound hs) (ht.toGrows.serves hc) ⟨f.package, name⟩
    refine ⟨_, .bindOk hservices hread, fun g => or_congr_right ?_⟩
    rw [ht.read_iff]
    exact and_iff_right hmeans

/-- A part that contributes nothing does not declare the class, and is no more than read. -/
theorem contributed_none (hs : s.Sound) (hc : s.Serves c) (hf : f ∈ c.provider.storedFragments)
    (h : (f.contributed name).runOn s = (.ok none, t)) :
    f.hasRecord c name = .ok false ∧ s.Reads t := by
  have hholds : s.Holds c f := ⟨hc.knows, hf⟩
  obtain ⟨declares, u, hdeclares, hread⟩ := runOn_bind_eq_ok h
  obtain ⟨hmeans, hu⟩ := (declares_answers hs hholds name).value_of_ok hdeclares
  cases declares with
  | false =>
    obtain ⟨-, rfl⟩ := Prod.mk.inj hread
    exact ⟨hmeans, hu⟩
  | true =>
    rw [if_pos rfl, runOn_bind_ok (runOn_services (hu.sound hs) (hu.toGrows.holds hholds))] at hread
    have hc := hu.toGrows.serves hc
    have hanswers := Services.readClass_answers (hu.sound hs) hc.knows hc.live ⟨f.package, name⟩
    obtain ⟨hclass, -⟩ := hanswers.value_of_ok hread
    cases Services.classOf_isSome hf (hasRecord_eq_true.1 hmeans) hclass

end StoredFragment

namespace Services

variable {s t : Store} {c : Services} {id : ClassId} {name : Name} {f g : StoredFragment}
  {fs : List StoredFragment}

theorem Comes.mem (h : c.Comes name fs g) : g ∈ fs := by
  induction h with
  | here => exact List.mem_cons_self
  | past _ _ ih => exact List.mem_cons_of_mem _ ih

theorem mem_parts {package : QualName} :
    f ∈ c.parts package ↔ f ∈ c.provider.storedFragments ∧ f.package = package := by
  rw [parts, List.mem_filter, beq_iff_eq]

/-! ## Searches for classes -/

/-- What searching a class in parts looks into: the parts that the search comes to and, when one of
them declares the class, where reading it does. -/
def Looked (c : Services) (s : Store) (id : ClassId) (fs : List StoredFragment) (g : StoredFragment) :
    Prop :=
  c.Comes id.relative fs g ∨
    (∃ f, c.Comes id.relative fs f ∧ f.hasRecord c id.relative = .ok true) ∧ c.Read s id g

theorem not_looked_nil : ¬ c.Looked s id [] g := by
  rintro (h | ⟨⟨f, h, -⟩, -⟩) <;> exact not_comes_nil h

theorem looked_cons {rest : List StoredFragment} : c.Looked s id (f :: rest) g ↔
    (g = f ∨ f.hasRecord c id.relative = .ok true ∧ c.Read s id g) ∨
      f.hasRecord c id.relative = .ok false ∧ c.Looked s id rest g := by
  have hdeclared : (∃ k, c.Comes id.relative (f :: rest) k ∧ k.hasRecord c id.relative = .ok true) ↔
      f.hasRecord c id.relative = .ok true ∨ f.hasRecord c id.relative = .ok false ∧
        ∃ k, c.Comes id.relative rest k ∧ k.hasRecord c id.relative = .ok true := by
    simp only [comes_cons, or_and_right, exists_or, exists_eq_left, and_assoc, exists_and_left]
  rw [Looked, Looked, hdeclared, comes_cons]
  grind

theorem looked_congr (h : s.Reads t) : c.Looked t id fs g ↔ c.Looked s id fs g :=
  or_congr_right (and_congr_right' h.read_iff)

/-- A search through parts of the class's package looks into them as `Looked` says. -/
theorem parts_touch (hs : s.Sound) (hc : s.Serves c) (hfs : fs ⊆ c.parts id.package) :
    Touches (c.Looked s id fs) (firstAnswer (fun f => f.contributed id.relative) fs) s := by
  induction fs generalizing s with
  | nil => exact (Touches.pure' none s).congr fun g => iff_of_false not_looked_nil not_false
  | cons f rest ih =>
    obtain ⟨hf, hpackage⟩ := mem_parts.1 (hfs List.mem_cons_self)
    have htouches := f.contributed_touches hs hc hf id.relative
    rw [hpackage] at htouches
    refine htouches.bind (fun g hg => looked_cons.2 (.inl hg)) fun answer t hanswer => ?_
    -- The search ends at a part that declares the class, and passes the others without an answer.
    cases answer with
    | some d =>
      obtain ⟨hdeclares, -⟩ := StoredFragment.contributed_some hs ⟨hc.knows, hf⟩ hanswer
      refine ⟨_, .pure' _ t, fun g => ?_⟩
      rw [or_false]
      exact looked_cons.trans (or_iff_left fun h => by cases hdeclares.symm.trans h.1)
    | none =>
      obtain ⟨hmisses, ht⟩ := StoredFragment.contributed_none hs hc hf hanswer
      have hrest := ih (ht.sound hs) (ht.toGrows.serves hc) (List.subset_of_cons_subset hfs)
      refine ⟨_, hrest, fun g => looked_cons.trans (or_congr_right ?_)⟩
      exact (and_iff_right hmisses).trans (looked_congr ht).symm

/-- A search that finds nothing goes through parts that do not declare the class, and reads them. -/
theorem parts_none (hs : s.Sound) (hc : s.Serves c) (hfs : fs ⊆ c.provider.storedFragments)
    (h : (firstAnswer (fun f : StoredFragment => f.contributed name) fs).runOn s = (.ok none, t)) :
    (∀ f ∈ fs, f.hasRecord c name = .ok false) ∧ s.Reads t := by
  induction fs generalizing s with
  | nil =>
    obtain ⟨-, rfl⟩ := Prod.mk.inj h
    exact ⟨nofun, .refl s⟩
  | cons f rest ih =>
    have hf := hfs List.mem_cons_self
    obtain ⟨answer, u, hanswer, hrest⟩ := runOn_bind_eq_ok h
    cases answer with
    | some d => cases (Prod.mk.inj hrest).1
    | none =>
      obtain ⟨hmisses, hu⟩ := StoredFragment.contributed_none hs hc hf hanswer
      obtain ⟨hall, ht⟩ := ih (hu.sound hs) (hu.toGrows.serves hc) (List.subset_of_cons_subset hfs) hrest
      exact ⟨List.forall_mem_cons.2 ⟨hmisses, hall⟩, hu.trans ht⟩

/-- A search that finds a class comes to a part that declares it. -/
theorem parts_some (hs : s.Sound) (hc : s.Serves c) (hfs : fs ⊆ c.provider.storedFragments)
    {d : ClassDescriptor}
    (h : (firstAnswer (fun f : StoredFragment => f.contributed name) fs).runOn s = (.ok (some d), t)) :
    ∃ f ∈ fs, f.hasRecord c name = .ok true := by
  have hmeans : Means (fun f : StoredFragment => f.contributed name) (fun f => f.meaning c name)
      ClassDescriptor.anonymous s fs := fun f hf t ht =>
    f.contributed_answers (ht.sound hs) (ht.serves hc) (ht.holds ⟨hc.knows, hfs hf⟩) name
  obtain ⟨before, f, after, u, rfl, -, hf, -⟩ := firstAnswer_some hmeans h
  have hmem : f ∈ before ++ f :: after := by simp
  exact ⟨f, hmem, StoredFragment.hasRecord_eq_true.2
    ((StoredFragment.meaning_isSome (hfs hmem) hf).1 rfl)⟩

/-- The record of a class is one of the part at which the search for it ends. -/
theorem searched_of_recordOf {record : ClassRecord} (h : c.recordOf id = .ok (some (g, record))) :
    c.Searched id g ∧ g.hasRecord c id.relative = .ok true := by
  rw [Searched, ← parts_packageFragments]
  rw [recordOf] at h
  generalize c.provider.packageFragments id.package = items at h ⊢
  induction items with
  | nil => cases h
  | cons i rest ih =>
    rw [List.findSomeM?_cons] at h
    cases i with
    | aliasing a => exact ih h
    | exported e => exact ih h
    | stored f =>
      obtain ⟨answer, hanswer, h⟩ := except_bind_eq_ok.1 h
      obtain ⟨found, hfound, hpure⟩ := except_bind_eq_ok.1 hanswer
      obtain rfl := Except.ok.inj hpure
      have hdeclares := f.hasRecord_of_recordOf hfound
      cases found with
      | some found =>
        obtain ⟨rfl, -⟩ := Prod.mk.inj (Option.some.inj (Except.ok.inj h))
        exact ⟨.here, hdeclares⟩
      | none => exact (ih h).imp_left (.past hdeclares)

theorem Annotated.declared (h : c.Annotated id g) :
    ∃ f, c.Searched id f ∧ f.hasRecord c id.relative = .ok true := by
  obtain ⟨f, record, hrecord, -⟩ := h
  exact ⟨f, searched_of_recordOf hrecord⟩

/-- What searching a class in its package looks into: the parts that the search comes to and, when no
answer to the class is remembered, those that its annotations are searched in. -/
def Reached (c : Services) (s : Store) (id : ClassId) (g : StoredFragment) : Prop :=
  c.Searched id g ∨ s.Unasked c id ∧ c.Annotated id g

theorem looked_parts : c.Looked s id (c.parts id.package) g ↔ c.Reached s id g := by
  constructor
  · rintro (h | ⟨-, hnone, h | h⟩)
    · exact .inl h
    · exact .inl h
    · exact .inr ⟨hnone, h⟩
  · rintro (h | ⟨hnone, h⟩)
    · exact .inl h
    · exact .inr ⟨h.declared, hnone, .inr h⟩

theorem Reached.mem (h : c.Reached s id g) : g ∈ c.provider.storedFragments := by
  rcases h with h | ⟨-, -, -, -, r, -, h⟩
  · exact (mem_parts.1 h.mem).1
  · exact (mem_parts.1 h.mem).1

end Services

/-! ## Aliases -/

namespace AliasFragment

variable {s t : Store} {c : Services} {id : ClassId} {fs : List StoredFragment}

theorem go_touches (hs : s.Sound) (hc : s.Serves c) (hfs : fs ⊆ c.parts id.package) :
    Touches (c.Looked s id fs) (contributed.go id.relative fs) s := by
  induction fs generalizing s with
  | nil => exact (Touches.pure' none s).congr fun g => iff_of_false Services.not_looked_nil not_false
  | cons f rest ih =>
    obtain ⟨hf, hpackage⟩ := Services.mem_parts.1 (hfs List.mem_cons_self)
    have hholds : s.Holds c f := ⟨hc.knows, hf⟩
    have htouches := f.declares_touches hs hholds id.relative
    refine htouches.bind (fun g hg => Services.looked_cons.2 (.inl (.inl hg))) fun declares t hd => ?_
    obtain ⟨hmeans, ht⟩ := (f.declares_answers hs hholds id.relative).value_of_ok hd
    cases declares with
    | false =>
      have hrest := ih (ht.sound hs) (ht.toGrows.serves hc) (List.subset_of_cons_subset hfs)
      refine ⟨_, hrest, fun g => ?_⟩
      rw [Services.looked_cons, hmeans, Services.looked_congr ht]
      simp
    | true =>
      have hcontributed := f.contributed_touches (ht.sound hs) (ht.toGrows.serves hc) hf id.relative
      rw [hpackage] at hcontributed
      refine ⟨_, hcontributed, fun g => ?_⟩
      rw [Services.looked_cons, hmeans, ht.read_iff]
      simp

theorem go_none (hs : s.Sound) (hc : s.Serves c) (hfs : fs ⊆ c.provider.storedFragments) {name : Name}
    (h : (contributed.go name fs).runOn s = (.ok none, t)) : s.Reads t := by
  induction fs generalizing s with
  | nil =>
    obtain ⟨-, rfl⟩ := Prod.mk.inj h
    exact .refl s
  | cons f rest ih =>
    have hf := hfs List.mem_cons_self
    obtain ⟨declares, u, hdeclares, hgo⟩ := runOn_bind_eq_ok h
    obtain ⟨hmeans, hu⟩ := (f.declares_answers hs ⟨hc.knows, hf⟩ name).value_of_ok hdeclares
    cases declares with
    | false =>
      exact hu.trans
        (ih (hu.sound hs) (hu.toGrows.serves hc) (List.subset_of_cons_subset hfs) hgo)
    | true => exact hu.trans (f.contributed_none (hu.sound hs) (hu.toGrows.serves hc) hf hgo).2

/-- Aliases of one package look into its parts, if there is an alias at all. -/
theorem aliases_touch (hs : s.Sound) (hc : s.Serves c) {shown : List AliasFragment}
    (hshown : ∀ a ∈ shown, a.targets = c.parts id.package) :
    Touches (fun g => shown ≠ [] ∧ c.Looked s id (c.parts id.package) g)
      (firstAnswer (fun a : AliasFragment => a.contributed id.relative) shown) s := by
  induction shown generalizing s with
  | nil => exact (Touches.pure' none s).congr fun g => iff_false_intro fun h => h.1 rfl
  | cons a rest ih =>
    have htouches : Touches (c.Looked s id (c.parts id.package)) (a.contributed id.relative) s := by
      rw [contributed, hshown a List.mem_cons_self]
      exact go_touches hs hc (List.Subset.refl _)
    refine htouches.bind (fun g hg => ⟨List.cons_ne_nil a rest, hg⟩) fun answer t hanswer => ?_
    cases answer with
    | some d => exact ⟨_, .pure' _ t, fun g => by simp⟩
    | none =>
      rw [contributed, hshown a List.mem_cons_self] at hanswer
      have ht := go_none hs hc (fun f hf => (Services.mem_parts.1 hf).1) hanswer
      refine ⟨_, ih (ht.sound hs) (ht.toGrows.serves hc) fun b hb => hshown b (List.mem_cons_of_mem a hb),
        fun g => ?_⟩
      -- What the aliases that follow look into was looked into already.
      rw [Services.looked_congr ht]
      exact ⟨fun h => .inl h.2, fun h => ⟨List.cons_ne_nil a rest, h.elim (fun h => h) And.right⟩⟩

end AliasFragment

/-! ## Exported declarations -/

namespace ExportedFragment

variable {s : Store}

theorem placeholder_touches (e : ExportedFragment) (declaration : QualName) :
    Touches (fun _ => False) (e.placeholder declaration) s := by
  cases hp : s.placeholders.get? (e.identity, declaration) with
  | some d => exact .nothing (by rw [runOn_placeholder_of_placed hp])
  | none => exact .nothing (by rw [runOn_placeholder hp]; rfl)

theorem contributed_touches (e : ExportedFragment) (name : Name) :
    Touches (fun _ => False) (e.contributed name) s := by
  unfold contributed
  cases e.declarations.find? (·.shortName == name) with
  | none => exact .pure' none s
  | some declaration => exact (e.placeholder_touches declaration).thenNothing fun _ t _ => .pure' _ t

theorem exported_touch {offered : List ExportedFragment} (name : Name) :
    Touches (fun _ => False) (firstAnswer (fun e : ExportedFragment => e.contributed name) offered) s := by
  induction offered generalizing s with
  | nil => exact .pure' none s
  | cons e rest ih =>
    refine (e.contributed_touches name).thenNothing fun answer t _ => ?_
    cases answer with
    | some d => exact .pure' _ t
    | none => exact ih

end ExportedFragment

end SymbolAtlas
