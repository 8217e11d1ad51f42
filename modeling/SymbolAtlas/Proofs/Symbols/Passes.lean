import SymbolAtlas.Proofs.Symbols.Questions
import SymbolAtlas.Proofs.Symbols.Search

/-!
# The passes of a resolution

A resolution looks for a class three times in every module: for a stored fragment that declares it,
for an alias that finds it, and for an export that stands for it. What each pass finds in a module
follows from the module's library alone, and is the same descriptor whenever it is found.

* `Pass.query_answers`: what a pass finds in a module;
* `Pass.query_lasts`: it finds the same descriptor ever after.
-/

namespace SymbolAtlas

open Query

/-- The declaration of the fragment that stands for a class: of its dotted name, or of its name
alone when the fragment belongs to the class's package. -/
def ExportedFragment.declarationFor (f : ExportedFragment) (id : ClassId) : Option QualName :=
  if f.declares id.qualName then some id.qualName
  else if f.package == id.package then f.declarations.find? (·.shortName == id.relative)
  else none

def Resolution.anonymous : Resolution → Resolution
  | declared m d => declared m d.anonymous
  | aliased m d => aliased m d.anonymous
  | forwardDeclared m d => forwardDeclared m d.anonymous
  | notFound => notFound

inductive Pass
  | declared
  | aliased
  | forwardDeclared

namespace Pass

/-- What the pass answers for a class that it finds in a module. -/
def resolution : Pass → Module → ClassDescriptor → Resolution
  | declared => .declared
  | aliased => .aliased
  | forwardDeclared => .forwardDeclared

def query : Pass → ClassId → Module → Query (Option Resolution)
  | declared => ModuleGraph.declaredIn
  | aliased => ModuleGraph.aliasedIn
  | forwardDeclared => ModuleGraph.forwardDeclaredIn

def fragments : Pass → Services → ClassId → List Fragment
  | declared, c, id => c.provider.packageFragments id.package
  | aliased, c, id => c.provider.packageFragments id.package
  | forwardDeclared, c, _ => c.provider.syntheticFragments

def ask (id : ClassId) : Pass → Fragment → Query (Option ClassDescriptor)
  | declared, .stored f => f.contributed id.relative
  | aliased, .aliasing f => f.contributed id.relative
  | forwardDeclared, .exported f => ModuleGraph.exportedBy id f
  | _, _ => return none

def meaning (c : Services) (id : ClassId) : Pass → Fragment → Except LoadError (Option ClassDescriptor)
  | declared, .stored f => f.meaning c id.relative
  | aliased, .aliasing f => f.meaning c id.relative
  | forwardDeclared, .exported f => return (f.declarationFor id).map (.ofDeclaration 0)
  | _, _ => return none

def found (p : Pass) (c : Services) (id : ClassId) : Except LoadError (Option ClassDescriptor) :=
  (p.fragments c id).findSomeM? (p.meaning c id)

variable {s : Store} {c : Services} {m : Module} {id : ClassId} {p : Pass}

theorem runOn_query (hm : m.services? s = some c) : (p.query id m).runOn s =
    (Option.map (p.resolution m) <$> firstAnswer (p.ask id) (p.fragments c id)).runOn s := by
  rw [map_eq_pure_bind]
  cases p with
  | declared =>
    rw [query, ModuleGraph.declaredIn, runOn_bind_ok (Module.runOn_packageFragments hm)]
    refine congrArg (fun ask => (firstAnswer ask _ >>= _).runOn s) (funext fun f => ?_)
    cases f <;> rfl
  | aliased =>
    rw [query, ModuleGraph.aliasedIn, runOn_bind_ok (Module.runOn_packageFragments hm)]
    refine congrArg (fun ask => (firstAnswer ask _ >>= _).runOn s) (funext fun f => ?_)
    cases f <;> rfl
  | forwardDeclared =>
    rw [query, ModuleGraph.forwardDeclaredIn, runOn_bind_ok (Module.runOn_provider hm)]
    refine congrArg (fun ask => (firstAnswer ask _ >>= _).runOn s) (funext fun f => ?_)
    cases f <;> rfl

/-! ## In a fragment -/

/-- The two ways to a placeholder come down to one declaration. -/
theorem exportedBy_eq (id : ClassId) (f : ExportedFragment) :
    ModuleGraph.exportedBy id f = match f.declarationFor id with
      | some declaration => some <$> f.placeholder declaration
      | none => pure none := by
  unfold ModuleGraph.exportedBy ExportedFragment.placeholderFor ExportedFragment.declarationFor
  by_cases hname : f.declares id.qualName
  · rw [if_pos hname, if_pos hname]
    simp only [map_eq_pure_bind, bind_assoc, pure_bind]
  · rw [if_neg hname, if_neg hname, pure_bind]
    dsimp only
    by_cases hpackage : f.package == id.package
    · rw [if_pos hpackage, if_pos hpackage, ExportedFragment.contributed]
      cases f.declarations.find? (·.shortName == id.relative) with
      | none => rfl
      | some declaration => simp only [map_eq_pure_bind]
    · rw [if_neg hpackage, if_neg hpackage]

theorem mem_fragments {f : Fragment} (h : f ∈ p.fragments c id) : f ∈ c.provider.fragments := by
  cases p with
  | declared => exact (Provider.mem_packageFragments.1 h).1
  | aliased => exact (Provider.mem_packageFragments.1 h).1
  | forwardDeclared => exact (List.mem_filter.1 h).1

theorem ask_answers (hs : s.Sound) (hc : s.Serves c) {f : Fragment} (hf : f ∈ p.fragments c id) :
    Answers Store.Grows (p.ask id f) s (Option.map ClassDescriptor.anonymous) (p.meaning c id f) := by
  have hmem := mem_fragments hf
  match p, f with
  | declared, .stored f =>
    exact f.contributed_answers hs hc ⟨hc.knows, Provider.stored_mem.1 hmem⟩ id.relative
  | aliased, .aliasing a =>
    exact AliasFragment.go_answers hs hc (fun f hf => ⟨hc.knows, hs.targets c hc.knows a hmem f hf⟩)
      id.relative
  | forwardDeclared, .exported e =>
    rw [ask, exportedBy_eq, meaning]
    cases e.declarationFor id with
    | none => exact .pure' (.refl s) none
    | some declaration => exact (e.placeholder_answers hs declaration).map fun _ => rfl
  | declared, .aliasing _ | declared, .exported _ | aliased, .stored _ | aliased, .exported _
  | forwardDeclared, .stored _ | forwardDeclared, .aliasing _ => exact .pure' (.refl s) none

theorem ask_lasts (hs : s.Sound) (hc : s.Knows c) {f : Fragment} (hf : f ∈ p.fragments c id) :
    (p.ask id f).Lasts s := by
  have hmem := mem_fragments hf
  have hnone : (pure none : Query (Option ClassDescriptor)).Lasts s :=
    fun _ _ h => by cases (Prod.mk.inj h).1
  match p, f with
  | declared, .stored f =>
    exact f.contributed_lasts hs ⟨hc, Provider.stored_mem.1 hmem⟩ id.relative
  | aliased, .aliasing a =>
    exact AliasFragment.go_lasts hs (fun f hf => ⟨hc, hs.targets c hc a hmem f hf⟩) id.relative
  | forwardDeclared, .exported e =>
    rw [ask, exportedBy_eq]
    cases e.declarationFor id with
    | none => exact hnone
    | some declaration => exact e.placeholder_lasts declaration
  | declared, .aliasing _ | declared, .exported _ | aliased, .stored _ | aliased, .exported _
  | forwardDeclared, .stored _ | forwardDeclared, .aliasing _ => exact hnone

/-! ## In a module -/

theorem means_fragments (hs : s.Sound) (hc : s.Serves c) :
    Means (p.ask id) (p.meaning c id) ClassDescriptor.anonymous s (p.fragments c id) :=
  fun _ hf _ ht => ask_answers (ht.sound hs) (ht.serves hc) hf

theorem anonymous_resolution (m : Module) (d : ClassDescriptor) :
    (p.resolution m d).anonymous = p.resolution m d.anonymous := by
  cases p <;> rfl

theorem query_answers (hs : s.Sound) (hc : s.Serves c) (hm : m.services? s = some c) :
    Answers Store.Grows (p.query id m) s (Option.map Resolution.anonymous)
      (Option.map (p.resolution m) <$> p.found c id) := by
  have hmeans : Means (p.ask id) (p.meaning c id) ClassDescriptor.anonymous s (p.fragments c id) :=
    means_fragments hs hc
  have hfirst := Answers.firstAnswer Store.Grows.refl hmeans
  have hmap : ∀ d, (Option.map (p.resolution m) d).map Resolution.anonymous =
      (d.map ClassDescriptor.anonymous).map (p.resolution m) := by
    intro d
    cases d with
    | none => rfl
    | some d => exact congrArg some (anonymous_resolution m d)
  obtain ⟨hleads, hvalue⟩ := hfirst.map hmap
  rw [← runOn_query hm] at hleads hvalue
  exact ⟨hleads, hvalue⟩

theorem query_found (hs : s.Sound) (hc : s.Serves c) (hm : m.services? s = some c) {r : Resolution}
    {t : Store} (h : (p.query id m).runOn s = (.ok (some r), t)) :
    ∃ d, r = p.resolution m d ∧ p.found c id = .ok (some d.anonymous) := by
  rw [runOn_query hm, map_eq_pure_bind] at h
  obtain ⟨answer, t', hfirst, hpure⟩ := runOn_bind_eq_ok h
  obtain ⟨d, rfl, rfl⟩ := Option.map_eq_some_iff.1 (Except.ok.inj (Prod.mk.inj hpure).1)
  have hmeans : Means (p.ask id) (p.meaning c id) ClassDescriptor.anonymous s (p.fragments c id) :=
    means_fragments hs hc
  have hanswers := Answers.firstAnswer Store.Grows.refl hmeans
  exact ⟨d, rfl, (hanswers.value_of_ok hfirst).1⟩

theorem query_lasts (hs : s.Sound) (hc : s.Serves c) (hm : m.services? s = some c) :
    (p.query id m).Lasts s := by
  have hfirst : (firstAnswer (p.ask id) (p.fragments c id)).Lasts s :=
    firstAnswer_lasts (means_fragments hs hc) fun f hf t ht =>
      ask_lasts (ht.sound hs) (ht.knows_iff.2 hc.knows) hf
  intro r t h u hu
  have hgrows : s.Grows u := ((query_answers hs hc hm).keeps.leads h).trans hu
  rw [runOn_query hm] at h
  rw [runOn_query (s := u) ((hgrows.services? m).trans hm)]
  exact hfirst.map _ r t h u hu

end Pass

end SymbolAtlas
