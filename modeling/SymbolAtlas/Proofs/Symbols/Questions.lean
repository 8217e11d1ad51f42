import SymbolAtlas.Proofs.Symbols.Contribution
import SymbolAtlas.Symbols.Graph

namespace SymbolAtlas

open Query

/-- A question about services that a store knows, about one of their fragments, or about modules. -/
inductive Store.Asks (s : Store) : {α : Type} → Query α → Prop
  | scope {c : Services} {f : StoredFragment} (hf : s.Holds c f) : s.Asks f.scope
  | classRecord {c : Services} {f : StoredFragment} (hf : s.Holds c f) (name : Name) :
      s.Asks (f.classRecord? name)
  | classNames {c : Services} (hc : s.Knows c) {f : Fragment} (hf : f ∈ c.provider.fragments) :
      s.Asks f.classNames
  | functionNames {c : Services} {f : StoredFragment} (hf : s.Holds c f) : s.Asks f.functionNames
  | propertyNames {c : Services} {f : StoredFragment} (hf : s.Holds c f) : s.Asks f.propertyNames
  | contributed {c : Services} (hc : s.Knows c) {f : Fragment} (hf : f ∈ c.provider.fragments)
      (name : Name) : s.Asks (f.contributed name)
  | placeholderFor (f : ExportedFragment) (declaration : QualName) :
      s.Asks (f.placeholderFor declaration)
  | findRecord {c : Services} (hc : s.Knows c) (id : ClassId) : s.Asks (c.findRecord id)
  | missingClass {c : Services} (hc : s.Knows c) (id : ClassId) (typeParameters : UInt32) :
      s.Asks (c.missingClass id typeParameters)
  | loadAnnotation {c : Services} (hc : s.Knows c) (record : AnnotationRecord) :
      s.Asks (c.loadAnnotation record)
  | readClass {c : Services} (hc : s.Knows c) (id : ClassId) : s.Asks (c.readClass id)
  | findClass {c : Services} (hc : s.Knows c) (id : ClassId) : s.Asks (c.findClass id)
  | resolveClass {c : Services} (hc : s.Knows c) (id : ClassId) : s.Asks (c.resolveClass id)
  | resolve (g : ModuleGraph) (id : ClassId) : s.Asks (g.resolve id)
  /-- What is asked of the services of a module can be asked of the module. -/
  | through {α : Type} {m : Module} {q : Services → Query α}
      (h : ∀ c, m.services? s = some c → s.Asks (q c)) : s.Asks (do q (← m.services))

variable {s : Store} {c : Services}

theorem Fragment.contributed_keeps (hs : s.Sound) (hc : s.Knows c) {f : Fragment}
    (hf : f ∈ c.provider.fragments) (name : Name) : Keeps Store.Changes (f.contributed name) s := by
  cases f with
  | stored f => exact f.contributed_keeps hs ⟨hc, Provider.stored_mem.1 hf⟩ name
  | aliasing a => exact AliasFragment.go_keeps hs (fun f hm => ⟨hc, hs.targets c hc a hf f hm⟩) name
  | exported e =>
    change Keeps Store.Changes (e.contributed name) s
    unfold ExportedFragment.contributed
    split
    · exact (e.placeholder_keeps _).bind fun d t _ _ => .refl t
    · exact .refl s

/-- What a stored fragment tells of its symbols takes no more than to read it. -/
theorem StoredFragment.names_keep {α : Type} (hs : s.Sound) {f : StoredFragment} (hf : s.Holds c f)
    (shown : Payload → α) : Keeps Store.Changes (do return shown (← f.scope)) s :=
  (f.scope_keeps hs hf).bind fun _ t _ _ => .refl t

theorem Fragment.classNames_keeps (hs : s.Sound) (hc : s.Knows c) {f : Fragment}
    (hf : f ∈ c.provider.fragments) : Keeps Store.Changes f.classNames s := by
  cases f with
  | stored f => exact f.names_keep hs ⟨hc, Provider.stored_mem.1 hf⟩ _
  | aliasing a =>
    refine Keeps.bind (Keeps.mapM Store.Changes.refl fun f hm t ht => ?_) fun names t _ _ => .refl t
    exact f.names_keep (ht.grows.sound hs)
      (ht.grows.holds ⟨hc, hs.targets c hc a hf f hm⟩) Payload.classNames
  | exported e => exact .refl s

theorem ExportedFragment.placeholderFor_keeps (f : ExportedFragment) (declaration : QualName) :
    Keeps Store.Changes (f.placeholderFor declaration) s := by
  unfold placeholderFor
  split
  · exact (f.placeholder_keeps declaration).bind fun d t _ _ => .refl t
  · exact .refl s

namespace Services

theorem findClass_keeps (hs : s.Sound) (hc : s.Knows c) (id : ClassId) :
    Keeps Store.Changes (c.findClass id) s := by
  rw [Keeps, findClass, runOn_bind_ok (runOn_liveFragments s c id.package)]
  apply Keeps.firstAnswer Store.Changes.refl
  intro f hf t ht
  have hf := (Provider.mem_packageFragments.1 (mem_of_mem_current hf)).1
  exact Fragment.contributed_keeps (ht.grows.sound hs) (ht.grows.knows_iff.2 hc) hf id.relative

theorem resolveClass_keeps (hs : s.Sound) (hc : s.Knows c) (id : ClassId) :
    Keeps Store.Changes (c.resolveClass id) s := by
  apply (findClass_keeps hs hc id).bind
  intro found t ht _
  cases found with
  | some d => exact .refl t
  | none =>
    exact (missingClass_keeps (ht.grows.knows_iff.2 hc) id 0).bind fun m u _ _ => .refl u

end Services

/-! ## Modules and graphs -/

/-- Look-ups give no module other services. -/
theorem Store.Grows.services? {t : Store} (h : s.Grows t) (m : Module) : m.services? t = m.services? s := by
  rw [Module.services?, h.modules, Module.services?]

namespace Module

variable {m : Module} {package : QualName}

theorem runOn_services (h : m.services? s = some c) : m.services.runOn s = (.ok c, s) := by
  rw [services, runOn_get_bind, h]
  rfl

theorem runOn_services_none (h : m.services? s = none) :
    m.services.runOn s = (.error (.moduleNotInitialized m.name.text), s) := by
  rw [services, runOn_get_bind, h]
  rfl

theorem runOn_provider (h : m.services? s = some c) : m.provider.runOn s = (.ok c.provider, s) := by
  rw [provider, runOn_bind_ok (runOn_services h)]
  rfl

theorem runOn_provider_none (h : m.services? s = none) :
    m.provider.runOn s = (.error (.moduleNotInitialized m.name.text), s) := by
  rw [provider, runOn_bind, runOn_services_none h]

theorem runOn_packageFragments (h : m.services? s = some c) :
    (m.packageFragments package).runOn s = (.ok (c.provider.packageFragments package), s) := by
  rw [packageFragments, runOn_bind_ok (runOn_provider h)]
  rfl

theorem runOn_packageFragments_none (h : m.services? s = none) :
    (m.packageFragments package).runOn s = (.error (.moduleNotInitialized m.name.text), s) := by
  rw [packageFragments, runOn_bind, runOn_provider_none h]

/-- Looking through the fragments of a package keeps what looking into each of them keeps. -/
theorem packageFragments_keeps {α : Type} {next : List Fragment → Query α}
    (h : ∀ c, s.Knows c → Keeps Store.Changes (next (c.provider.packageFragments package)) s) :
    Keeps Store.Changes (m.packageFragments package >>= next) s := by
  cases hm : m.services? s with
  | none =>
    rw [Keeps, runOn_bind, runOn_packageFragments_none hm]
    exact .refl s
  | some c =>
    rw [Keeps, runOn_bind_ok (runOn_packageFragments hm)]
    exact h c (knows_of_services? hm)

end Module

namespace ModuleGraph

theorem exportedBy_keeps (id : ClassId) (f : ExportedFragment) :
    Keeps Store.Changes (exportedBy id f) s := by
  apply (f.placeholderFor_keeps id.qualName).bind
  intro found t ht _
  cases found with
  | some d => exact .refl t
  | none =>
    dsimp only
    split
    · unfold ExportedFragment.contributed
      split
      · exact (f.placeholder_keeps _).bind fun d u _ _ => .refl u
      · exact .refl t
    · exact .refl t

theorem declaredIn_keeps (hs : s.Sound) (id : ClassId) (m : Module) :
    Keeps Store.Changes (declaredIn id m) s := by
  apply Module.packageFragments_keeps
  intro c hc
  refine Keeps.bind (Keeps.firstAnswer Store.Changes.refl fun f hf t ht => ?_) fun _ u _ _ => .refl u
  cases f with
  | stored f =>
    have hf := (Provider.mem_packageFragments.1 hf).1
    exact Fragment.contributed_keeps (ht.grows.sound hs) (ht.grows.knows_iff.2 hc) hf id.relative
  | aliasing f => exact .refl t
  | exported f => exact .refl t

theorem aliasedIn_keeps (hs : s.Sound) (id : ClassId) (m : Module) :
    Keeps Store.Changes (aliasedIn id m) s := by
  apply Module.packageFragments_keeps
  intro c hc
  refine Keeps.bind (Keeps.firstAnswer Store.Changes.refl fun f hf t ht => ?_) fun _ u _ _ => .refl u
  cases f with
  | stored f => exact .refl t
  | aliasing f =>
    have hf := (Provider.mem_packageFragments.1 hf).1
    exact Fragment.contributed_keeps (ht.grows.sound hs) (ht.grows.knows_iff.2 hc) hf id.relative
  | exported f => exact .refl t

theorem forwardDeclaredIn_keeps (id : ClassId) (m : Module) :
    Keeps Store.Changes (forwardDeclaredIn id m) s := by
  unfold forwardDeclaredIn
  cases hm : m.services? s with
  | none =>
    rw [Keeps, runOn_bind, Module.runOn_provider_none hm]
    exact .refl s
  | some c =>
    rw [Keeps, runOn_bind_ok (Module.runOn_provider hm)]
    refine Keeps.bind (Keeps.firstAnswer Store.Changes.refl fun f _ t _ => ?_) fun _ u _ _ =>
      Store.Changes.refl u
    cases f with
    | stored f => exact .refl t
    | aliasing f => exact .refl t
    | exported f => exact exportedBy_keeps id f

theorem resolve_keeps (hs : s.Sound) (g : ModuleGraph) (id : ClassId) :
    Keeps Store.Changes (g.resolve id) s := by
  refine (Keeps.firstAnswer Store.Changes.refl fun m _ t ht =>
    declaredIn_keeps (ht.grows.sound hs) id m).bind fun found t ht _ => ?_
  cases found with
  | some r => exact .refl t
  | none =>
    refine (Keeps.firstAnswer Store.Changes.refl fun m _ u hu =>
      aliasedIn_keeps (hu.grows.sound (ht.grows.sound hs)) id m).bind fun found u hu _ => ?_
    cases found with
    | some r => exact .refl u
    | none =>
      refine (Keeps.firstAnswer Store.Changes.refl fun m _ _ _ =>
        forwardDeclaredIn_keeps id m).bind fun found v _ _ => ?_
      cases found with
      | some r => exact .refl v
      | none => exact .refl v

end ModuleGraph

/-- **A question makes the changes that look-ups make.** A question that fails halfway may have
changed the store, and what it has added is sound. -/
theorem Store.Asks.keeps {α : Type} {q : Query α} (h : s.Asks q) (hs : s.Sound) :
    Keeps Store.Changes q s := by
  induction h with
  | scope hf => exact StoredFragment.scope_keeps hs hf
  | classRecord hf name => exact StoredFragment.classRecord?_keeps hs hf name
  | classNames hc hf => exact Fragment.classNames_keeps hs hc hf
  | functionNames hf => exact StoredFragment.names_keep hs hf Payload.functionNames
  | propertyNames hf => exact StoredFragment.names_keep hs hf Payload.propertyNames
  | contributed hc hf name => exact Fragment.contributed_keeps hs hc hf name
  | placeholderFor f declaration => exact f.placeholderFor_keeps declaration
  | findRecord hc id => exact Services.findRecord_keeps hs hc id
  | missingClass hc id n => exact Services.missingClass_keeps hc id n
  | loadAnnotation hc record => exact Services.loadAnnotation_keeps hs hc record
  | readClass hc id => exact Services.readClass_keeps hs hc id
  | findClass hc id => exact Services.findClass_keeps hs hc id
  | resolveClass hc id => exact Services.resolveClass_keeps hs hc id
  | resolve g id => exact g.resolve_keeps hs id
  | @through _ m q _ ih =>
    cases hm : m.services? s with
    | none =>
      rw [Keeps, runOn_bind, Module.runOn_services_none hm]
      exact .refl s
    | some c =>
      rw [Keeps, runOn_bind_ok (Module.runOn_services hm)]
      exact ih c hm

/-- `t` is `s` after questions, whatever they were and whether or not they failed. -/
def Store.Asked : Store → Store → Prop :=
  Relation.ReflTransGen fun s t => ∃ (α : Type) (q : Query α), s.Asks q ∧ t = (q.runOn s).2

theorem Store.Asked.changes {t : Store} (h : s.Asked t) (hs : s.Sound) : s.Changes t := by
  induction h with
  | refl => exact .refl s
  | tail _ hstep ih =>
    obtain ⟨_, q, hq, rfl⟩ := hstep
    exact ih.trans (hq.keeps (ih.grows.sound hs))

end SymbolAtlas
