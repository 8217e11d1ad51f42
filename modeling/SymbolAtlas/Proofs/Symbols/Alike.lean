import Mathlib.Data.List.Forall2
import SymbolAtlas.Proofs.Symbols.Graph
import SymbolAtlas.Proofs.Symbols.Transparency

/-!
# Graphs that resolve alike

What a resolution answers follows from the services of the modules in the graph, in their order. Two
graphs whose modules have the same services, identities aside, resolve every class alike, in different
sessions and whatever was asked in either.

* `ModuleGraph.meaning`: what the modules of a graph mean to a resolution;
* `ModuleGraph.resolve_answers`: a resolution answers it;
* `ModuleGraph.resolve_alike`: graphs of modules that are alike resolve alike.
-/

namespace SymbolAtlas

open Query

def Module.anonymous (m : Module) : Module :=
  { m with identity := 0 }

/-- The resolution without any identities, those of modules included. -/
def Resolution.withoutIdentities : Resolution → Resolution
  | declared m d => declared m.anonymous d.anonymous
  | aliased m d => aliased m.anonymous d.anonymous
  | forwardDeclared m d => forwardDeclared m.anonymous d.anonymous
  | notFound => notFound

theorem Resolution.withoutIdentities_anonymous (r : Resolution) :
    r.anonymous.withoutIdentities = r.withoutIdentities := by
  have hdescriptor (d : ClassDescriptor) : d.anonymous.anonymous = d.anonymous := by
    have hannotation : Annotation.anonymous ∘ Annotation.anonymous = Annotation.anonymous := by
      funext a
      obtain ⟨_ | _, _⟩ := a <;> rfl
    simp [ClassDescriptor.anonymous, hannotation]
  cases r <;> simp [anonymous, withoutIdentities, hdescriptor]

namespace Pass

theorem fragments_anonymous (p : Pass) (c : Services) (id : ClassId) :
    p.fragments c.anonymous id = (p.fragments c id).map Fragment.anonymous := by
  cases p with
  | declared => exact c.provider.packageFragments_anonymous id.package
  | aliased => exact c.provider.packageFragments_anonymous id.package
  | forwardDeclared =>
    change c.provider.anonymous.fragments.filter Fragment.isSynthetic = _
    rw [Provider.fragments_anonymous, List.filter_map]
    have hsynthetic : Fragment.isSynthetic ∘ Fragment.anonymous = Fragment.isSynthetic := by
      funext f
      cases f <;> rfl
    rw [hsynthetic]
    rfl

theorem meaning_anonymous (p : Pass) (c : Services) (id : ClassId) (f : Fragment) :
    p.meaning c.anonymous id f.anonymous = p.meaning c id f := by
  match p, f with
  | declared, .stored f => exact f.meaning_anonymous c id.relative
  | aliased, .aliasing a => exact AliasFragment.go_anonymous a.targets c id.relative
  | forwardDeclared, .exported e => rfl
  | declared, .aliasing _ | declared, .exported _ | aliased, .stored _ | aliased, .exported _
  | forwardDeclared, .stored _ | forwardDeclared, .aliasing _ => rfl

/-- What a pass finds in a module does not depend on identities. -/
theorem found_anonymous (p : Pass) (c : Services) (id : ClassId) :
    p.found c.anonymous id = p.found c id := by
  rw [found, found, fragments_anonymous, findSomeM?_map]
  congr
  funext f
  exact p.meaning_anonymous c id f

def all : List Pass :=
  [declared, aliased, forwardDeclared]

end Pass

/-! ## What a graph means -/

namespace ModuleGraph

variable {g : ModuleGraph} {s u : Store} {id : ClassId}

/-- What the modules mean to a resolution. -/
def meaning (g : ModuleGraph) (s : Store) (id : ClassId) : Except LoadError Resolution :=
  (Option.getD · .notFound) <$> Pass.all.findSomeM? fun p => (p.order g.modules).findSomeM? (p.means s id)

theorem resolve_passes (g : ModuleGraph) (id : ClassId) : g.resolve id =
    (Option.getD · .notFound) <$>
      firstAnswer (fun p : Pass => firstAnswer (p.query id) (p.order g.modules)) Pass.all := by
  rw [resolve_eq, map_eq_pure_bind]
  simp only [Pass.all, firstAnswer, bind_assoc]
  congr
  funext first
  cases first with
  | some r => rfl
  | none =>
    simp only [bind_assoc]
    congr
    funext second
    cases second with
    | some r => rfl
    | none =>
      simp only [bind_assoc]
      congr
      funext third
      cases third <;> rfl

/-- Whatever was asked before, a resolution answers what the modules mean. -/
theorem resolve_answers (hs : s.Sound)
    (hlive : ∀ m ∈ g.modules, ∀ c, m.services? s = some c → s.hasEnded c.provider.identity = false)
    (hu : s.Grows u) :
    Answers Store.Grows (g.resolve id) u Resolution.anonymous (g.meaning s id) := by
  rw [resolve_passes]
  have hpasses : Answers Store.Grows
      (firstAnswer (fun p : Pass => firstAnswer (p.query id) (p.order g.modules)) Pass.all) u
      (Option.map Resolution.anonymous)
      (Pass.all.findSomeM? fun p => (p.order g.modules).findSomeM? (p.means s id)) :=
    .firstAnswer Store.Grows.refl fun p _ t ht =>
      .firstAnswer Store.Grows.refl (Pass.query_means hs hlive (hu.trans ht))
  exact hpasses.map fun r => by cases r <;> rfl

end ModuleGraph

/-! ## Modules that are alike -/

/-- The modules are of the same library and have the same services, identities aside. -/
structure Module.Alike (s s' : Store) (m m' : Module) : Prop where
  anonymous : m.anonymous = m'.anonymous
  services : (m.services? s).map Services.anonymous = (m'.services? s').map Services.anonymous

theorem Module.Alike.means {s s' : Store} {m m' : Module} (h : m.Alike s s' m') (p : Pass)
    (id : ClassId) : (p.means s id m).map (Option.map Resolution.withoutIdentities) =
      (p.means s' id m').map (Option.map Resolution.withoutIdentities) := by
  have hname : m.name = m'.name := (Module.mk.inj h.anonymous).2.1
  have hresolution (d : ClassDescriptor) : (p.resolution m d).withoutIdentities =
      (p.resolution m' d).withoutIdentities := by
    cases p <;> simp [Pass.resolution, Resolution.withoutIdentities, h.anonymous]
  have hservices := h.services
  unfold Pass.means
  cases hc : m.services? s with
  | none =>
    rw [hc] at hservices
    rw [Option.map_eq_none_iff.1 hservices.symm, hname]
  | some c =>
    rw [hc] at hservices
    obtain ⟨c', hc', hanonymous⟩ := Option.map_eq_some_iff.1 hservices.symm
    rw [hc']
    dsimp only
    rw [← p.found_anonymous c, ← p.found_anonymous c', hanonymous]
    rcases p.found c.anonymous id with e | _ | d
    · rfl
    · rfl
    · exact congrArg (fun r => Except.ok (some r)) (hresolution d)

theorem findSomeM?_forall₂ {ε α β γ : Type} {R : α → β → Prop} {f : α → Except ε (Option γ)}
    {g : β → Except ε (Option γ)} {xs : List α} {ys : List β} (h : List.Forall₂ R xs ys)
    (hfg : ∀ x y, R x y → f x = g y) : xs.findSomeM? f = ys.findSomeM? g := by
  induction h with
  | nil => rfl
  | cons hxy _ ih => rw [List.findSomeM?_cons, List.findSomeM?_cons, hfg _ _ hxy, ih]

namespace ModuleGraph

variable {g g' : ModuleGraph} {s s' u u' : Store}

theorem order_alike (h : List.Forall₂ (Module.Alike s s') g.modules g'.modules) (p : Pass) :
    List.Forall₂ (Module.Alike s s') (p.order g.modules) (p.order g'.modules) := by
  cases p with
  | declared => exact h
  | aliased => exact h
  | forwardDeclared => exact List.forall₂_reverse_iff.2 h

theorem meaning_alike (h : List.Forall₂ (Module.Alike s s') g.modules g'.modules) (id : ClassId) :
    (g.meaning s id).map Resolution.withoutIdentities =
      (g'.meaning s' id).map Resolution.withoutIdentities := by
  have hpass (p : Pass) :
      ((p.order g.modules).findSomeM? (p.means s id)).map (Option.map Resolution.withoutIdentities) =
        ((p.order g'.modules).findSomeM? (p.means s' id)).map
          (Option.map Resolution.withoutIdentities) := by
    rw [← findSomeM?_mapped, ← findSomeM?_mapped]
    exact findSomeM?_forall₂ (order_alike h p) fun m m' hm => hm.means p id
  have hpasses := congrArg (fun found => Pass.all.findSomeM? found) (funext hpass)
  simp only [findSomeM?_mapped] at hpasses
  have hnotFound (v : Except LoadError (Option Resolution)) :
      ((Option.getD · .notFound) <$> v).map Resolution.withoutIdentities =
        (v.map (Option.map Resolution.withoutIdentities)).map (Option.getD · .notFound) := by
    rcases v with e | _ | r <;> rfl
  rw [meaning, meaning, hnotFound, hnotFound, hpasses]

/-- **Graphs of modules that are alike resolve alike**, whatever was asked before. -/
theorem resolve_alike (h : List.Forall₂ (Module.Alike s s') g.modules g'.modules) (hs : s.Sound)
    (hs' : s'.Sound)
    (hlive : ∀ m ∈ g.modules, ∀ c, m.services? s = some c → s.hasEnded c.provider.identity = false)
    (hlive' : ∀ m ∈ g'.modules, ∀ c, m.services? s' = some c →
      s'.hasEnded c.provider.identity = false)
    (hu : s.Grows u) (hu' : s'.Grows u') (id : ClassId) :
    ((g.resolve id).runOn u).1.map Resolution.withoutIdentities =
      ((g'.resolve id).runOn u').1.map Resolution.withoutIdentities := by
  have hshown (v : Except LoadError Resolution) : v.map Resolution.withoutIdentities =
      (v.map Resolution.anonymous).map Resolution.withoutIdentities := by
    cases v with
    | error e => rfl
    | ok r => exact congrArg Except.ok r.withoutIdentities_anonymous.symm
  rw [hshown, hshown ((g'.resolve id).runOn u').1, (resolve_answers hs hlive hu).value,
    (resolve_answers hs' hlive' hu').value, meaning_alike h]

end ModuleGraph

end SymbolAtlas
