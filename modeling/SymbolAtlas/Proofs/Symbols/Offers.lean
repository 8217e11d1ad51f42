import SymbolAtlas.Proofs.Except
import SymbolAtlas.Proofs.Symbols.Passes

namespace SymbolAtlas

open Query

def StoredFragment.Declares (f : StoredFragment) (c : Services) (name : Name) : Prop :=
  ∃ record, f.recordOf c name = .ok (some record)

theorem StoredFragment.hasRecord_eq_true {f : StoredFragment} {c : Services} {name : Name} :
    f.hasRecord c name = .ok true ↔ f.Declares c name := by
  unfold hasRecord Declares
  constructor
  · intro h
    obtain ⟨r, hr, h⟩ := except_bind_eq_ok.1 h
    obtain ⟨record, rfl⟩ := Option.isSome_iff_exists.1 (Except.ok.inj h)
    exact ⟨record, hr⟩
  · rintro ⟨record, hr⟩
    rw [hr]
    rfl

namespace Services

variable {c : Services}

/-- A class that a fragment declares is found, when reading does not fail. -/
theorem classOf_isSome {f : StoredFragment} (hf : f ∈ c.provider.storedFragments) {name : Name}
    (hdeclares : f.Declares c name) {v : Option ClassDescriptor}
    (h : c.classOf ⟨f.package, name⟩ = .ok v) : v.isSome := by
  obtain ⟨found, hfound, h⟩ := except_bind_eq_ok.1 h
  obtain ⟨record, hrecord⟩ := hdeclares
  have hmem : .stored f ∈ c.provider.packageFragments f.package :=
    Provider.mem_packageFragments.2 ⟨Provider.stored_mem.2 hf, rfl⟩
  have hin : c.recordIn name (.stored f) = .ok (some (f, record)) := by
    rw [recordIn, hrecord]
    rfl
  obtain ⟨⟨g, record'⟩, rfl⟩ := Option.isSome_iff_exists.1 (findSomeM?_some hfound hmem hin)
  obtain ⟨d, -, rfl⟩ := except_map_eq_ok.1 h
  rfl

end Services

theorem StoredFragment.meaning_isSome {f : StoredFragment} {c : Services}
    (hf : f ∈ c.provider.storedFragments) {name : Name} {v : Option ClassDescriptor}
    (h : f.meaning c name = .ok v) : v.isSome ↔ f.Declares c name := by
  obtain ⟨declares, hdeclares, h⟩ := except_bind_eq_ok.1 h
  rw [← hasRecord_eq_true, hdeclares]
  cases declares with
  | true => simp [Services.classOf_isSome hf (hasRecord_eq_true.1 hdeclares) h]
  | false =>
    obtain rfl := Except.ok.inj h
    simp

theorem StoredFragment.classOf_of_meaning {f : StoredFragment} {c : Services} {name : Name}
    {d : ClassDescriptor} (h : f.meaning c name = .ok (some d)) :
    c.classOf ⟨f.package, name⟩ = .ok (some d) := by
  obtain ⟨declares, -, h⟩ := except_bind_eq_ok.1 h
  cases declares with
  | true => exact h
  | false => cases h

theorem AliasFragment.go_isSome {targets : List StoredFragment} {c : Services}
    (hf : ∀ f ∈ targets, f ∈ c.provider.storedFragments) {name : Name} {v : Option ClassDescriptor}
    (h : meaning.go c name targets = .ok v) : v.isSome ↔ ∃ f ∈ targets, f.Declares c name := by
  induction targets with
  | nil =>
    obtain rfl := Except.ok.inj h
    simp
  | cons f rest ih =>
    obtain ⟨declares, hdeclares, h⟩ := except_bind_eq_ok.1 h
    have hmem := hf f List.mem_cons_self
    cases declares with
    | true =>
      have hf := StoredFragment.hasRecord_eq_true.1 hdeclares
      simp [(StoredFragment.meaning_isSome hmem h).2 hf, hf]
    | false =>
      have hnot : ¬ f.Declares c name := by
        rw [← StoredFragment.hasRecord_eq_true, hdeclares]
        simp
      rw [ih (fun g hg => hf g (List.mem_cons_of_mem f hg)) h]
      simp [hnot]

theorem ExportedFragment.declarationFor_isSome {e : ExportedFragment} {id : ClassId} :
    (e.declarationFor id).isSome ↔ id.qualName ∈ e.declarations ∨
      e.package = id.package ∧ ∃ d ∈ e.declarations, d.shortName = id.relative := by
  unfold declarationFor declares
  by_cases hname : id.qualName ∈ e.declarations
  · simp [hname]
  · by_cases hpackage : e.package = id.package
    · simp [hname, hpackage]
    · simp [hname, hpackage]

/-! ## In a module -/

namespace Module

def Declares (s : Store) (id : ClassId) (m : Module) : Prop :=
  ∃ c, m.services? s = some c ∧
    ∃ f, .stored f ∈ c.provider.packageFragments id.package ∧ f.Declares c id.relative

/-- An alias fragment of the class's package finds the name of the class in one of its targets. -/
def Aliases (s : Store) (id : ClassId) (m : Module) : Prop :=
  ∃ c, m.services? s = some c ∧
    ∃ a, .aliasing a ∈ c.provider.packageFragments id.package ∧
      ∃ f ∈ a.targets, f.Declares c id.relative

/-- An exported fragment declares the dotted name of the class, or, when it belongs to the class's
package, its name alone. -/
def Exports (s : Store) (id : ClassId) (m : Module) : Prop :=
  ∃ c, m.services? s = some c ∧
    ∃ e, .exported e ∈ c.provider.fragments ∧
      (id.qualName ∈ e.declarations ∨
        e.package = id.package ∧ ∃ d ∈ e.declarations, d.shortName = id.relative)

/-- The module is initialized, and no look-up of the class in a fragment of its package fails. -/
def Readable (s : Store) (id : ClassId) (m : Module) : Prop :=
  ∃ c, m.services? s = some c ∧ ∀ f ∈ c.provider.packageFragments id.package,
    ∃ answer, ((f.contributed id.relative).runOn s).1 = .ok answer

/-- `Readable`, computed. -/
def isReadable (s : Store) (id : ClassId) (m : Module) : Bool :=
  match m.services? s with
  | some c => (c.provider.packageFragments id.package).all fun f =>
      ((f.contributed id.relative).runOn s).1.isOk
  | none => false

theorem isReadable_iff {s : Store} {id : ClassId} {m : Module} :
    m.isReadable s id = true ↔ m.Readable s id := by
  have hok {r : Except LoadError (Option ClassDescriptor)} :
      r.isOk = true ↔ ∃ answer, r = .ok answer := by
    cases r <;> simp [Except.isOk, Except.toBool]
  unfold isReadable Readable
  cases m.services? s with
  | none => simp
  | some c => simp only [List.all_eq_true, hok, Option.some.injEq, exists_eq_left']

instance (s : Store) (id : ClassId) (m : Module) : Decidable (m.Readable s id) :=
  decidable_of_iff _ isReadable_iff

/-- The module's provider is in use, and its fragments mean something under the name of the class. -/
structure Legible (s : Store) (id : ClassId) (m : Module) (c : Services) : Prop where
  services : m.services? s = some c
  live : s.hasEnded c.provider.identity = false
  meaning : ∀ f ∈ c.provider.packageFragments id.package, ∃ v, f.meaning c id.relative = .ok v

end Module

theorem Fragment.contributed_answers {s : Store} {c : Services} (hs : s.Sound) (hc : s.Serves c)
    {f : Fragment} (hf : f ∈ c.provider.fragments) (name : Name) :
    Answers Store.Grows (f.contributed name) s (Option.map ClassDescriptor.anonymous)
      (f.meaning c name) := by
  cases f with
  | stored f => exact f.contributed_answers hs hc ⟨hc.knows, Provider.stored_mem.1 hf⟩ name
  | aliasing a =>
    exact AliasFragment.go_answers hs hc (fun f hm => ⟨hc.knows, hs.targets c hc.knows a hf f hm⟩) name
  | exported e =>
    change Answers Store.Grows (e.contributed name) s _ (.ok (e.meaning name))
    rw [ExportedFragment.contributed, ExportedFragment.meaning]
    cases e.declarations.find? (·.shortName == name) with
    | none => exact .pure' (.refl s) none
    | some declaration =>
      apply (e.placeholder_answers hs declaration).bindKnown
      intro d t _ hd
      exact ⟨.refl t, congrArg (fun d => Except.ok (some d)) hd⟩

variable {s : Store} {c : Services} {m : Module} {id : ClassId}

theorem Module.Legible.serves (h : m.Legible s id c) : s.Serves c :=
  ⟨knows_of_services? h.services, h.live⟩

/-- Whether look-ups fail does not depend on what is remembered. -/
theorem Module.Readable.legible (h : m.Readable s id) (hs : s.Sound)
    (hlive : ∀ c, m.services? s = some c → s.hasEnded c.provider.identity = false) :
    ∃ c, m.Legible s id c := by
  obtain ⟨c, hm, hread⟩ := h
  refine ⟨c, hm, hlive c hm, fun f hf => ?_⟩
  obtain ⟨answer, ha⟩ := hread f hf
  have hf := (Provider.mem_packageFragments.1 hf).1
  have hvalue := (Fragment.contributed_answers hs ⟨knows_of_services? hm, hlive c hm⟩ hf
    id.relative).value
  rw [ha] at hvalue
  exact ⟨_, hvalue.symm⟩

/-- Look-ups change nothing of what is legible. -/
theorem Module.Legible.grows {t : Store} (h : m.Legible s id c) (ht : s.Grows t) :
    m.Legible t id c :=
  ⟨(ht.services? m).trans h.services, by rw [ht.hasEnded]; exact h.live, h.meaning⟩

namespace Pass

/-- The module can answer in the pass. -/
def Offers (s : Store) (id : ClassId) (m : Module) : Pass → Prop
  | declared => m.Declares s id
  | aliased => m.Aliases s id
  | forwardDeclared => m.Exports s id

variable {p : Pass}

theorem meaning_ok (hm : m.Legible s id c) {f : Fragment} (hf : f ∈ p.fragments c id) :
    ∃ v, p.meaning c id f = .ok v := by
  match p, f with
  | declared, .stored f => exact hm.meaning _ hf
  | aliased, .aliasing a => exact hm.meaning _ hf
  | forwardDeclared, .exported e => exact ⟨_, rfl⟩
  | declared, .aliasing _ | declared, .exported _ | aliased, .stored _ | aliased, .exported _
  | forwardDeclared, .stored _ | forwardDeclared, .aliasing _ => exact ⟨none, rfl⟩

theorem declared_iff (hm : m.Legible s id c) :
    (∃ f ∈ fragments declared c id, ∃ d, meaning c id declared f = .ok (some d)) ↔
      m.Declares s id := by
  constructor
  · rintro ⟨f, hf, d, hd⟩
    cases f with
    | stored f =>
      have hmem := Provider.stored_mem.1 (Provider.mem_packageFragments.1 hf).1
      exact ⟨c, hm.services, f, hf, (StoredFragment.meaning_isSome hmem hd).1 rfl⟩
    | aliasing a => cases hd
    | exported e => cases hd
  · rintro ⟨c', hc, f, hf, hdeclares⟩
    obtain rfl := Option.some.inj (hc.symm.trans hm.services)
    have hmem := Provider.stored_mem.1 (Provider.mem_packageFragments.1 hf).1
    obtain ⟨v, hv⟩ := hm.meaning _ hf
    obtain ⟨d, rfl⟩ := Option.isSome_iff_exists.1 ((StoredFragment.meaning_isSome hmem hv).2 hdeclares)
    exact ⟨.stored f, hf, d, hv⟩

theorem aliased_iff (hs : s.Sound) (hm : m.Legible s id c) :
    (∃ f ∈ fragments aliased c id, ∃ d, meaning c id aliased f = .ok (some d)) ↔
      m.Aliases s id := by
  have htargets {a : AliasFragment} (ha : .aliasing a ∈ c.provider.packageFragments id.package) :
      ∀ f ∈ a.targets, f ∈ c.provider.storedFragments :=
    hs.targets c hm.serves.knows a (Provider.mem_packageFragments.1 ha).1
  constructor
  · rintro ⟨f, hf, d, hd⟩
    cases f with
    | stored f => cases hd
    | aliasing a =>
      exact ⟨c, hm.services, a, hf, (AliasFragment.go_isSome (htargets hf) hd).1 rfl⟩
    | exported e => cases hd
  · rintro ⟨c', hc, a, ha, hdeclares⟩
    obtain rfl := Option.some.inj (hc.symm.trans hm.services)
    obtain ⟨v, hv⟩ := hm.meaning _ ha
    obtain ⟨d, rfl⟩ := Option.isSome_iff_exists.1
      ((AliasFragment.go_isSome (htargets ha) hv).2 hdeclares)
    exact ⟨.aliasing a, ha, d, hv⟩

theorem exported_iff (hm : m.Legible s id c) :
    (∃ f ∈ fragments forwardDeclared c id, ∃ d, meaning c id forwardDeclared f = .ok (some d)) ↔
      m.Exports s id := by
  constructor
  · rintro ⟨f, hf, d, hd⟩
    cases f with
    | stored f => cases hd
    | aliasing a => cases hd
    | exported e =>
      obtain ⟨declaration, hdeclaration, -⟩ := Option.map_eq_some_iff.1 (Except.ok.inj hd)
      refine ⟨c, hm.services, e, (List.mem_filter.1 hf).1, ?_⟩
      exact ExportedFragment.declarationFor_isSome.1 (by rw [hdeclaration]; rfl)
  · rintro ⟨c', hc, e, he, hdeclares⟩
    obtain rfl := Option.some.inj (hc.symm.trans hm.services)
    obtain ⟨declaration, hdeclaration⟩ :=
      Option.isSome_iff_exists.1 (ExportedFragment.declarationFor_isSome.2 hdeclares)
    refine ⟨.exported e, List.mem_filter.2 ⟨he, rfl⟩, .ofDeclaration 0 declaration, ?_⟩
    rw [meaning, hdeclaration]
    rfl

/-- A pass finds something in a legible module exactly when the module can answer in it. -/
theorem found_ok (hs : s.Sound) (hm : m.Legible s id c) :
    ∃ v, p.found c id = .ok v ∧ (v.isSome ↔ p.Offers s id m) := by
  obtain ⟨v, hv, hiff⟩ := findSomeM?_ok fun f (hf : f ∈ p.fragments c id) => meaning_ok hm hf
  refine ⟨v, hv, hiff.trans ?_⟩
  cases p with
  | declared => exact declared_iff hm
  | aliased => exact aliased_iff hs hm
  | forwardDeclared => exact exported_iff hm

end Pass

end SymbolAtlas
