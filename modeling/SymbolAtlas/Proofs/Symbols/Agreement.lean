import SymbolAtlas.Proofs.Symbols.Naming

/-!
# One module and a graph of it

A class that a module finds is what a graph of the module alone resolves. The two searches go through
the fragments in different orders, and differ where declarations are exported: a module takes the first
declaration of that name, a graph the dotted name of the class before any other.

* `ModuleGraph.resolve_single`: a graph of one module answers with the first pass that finds anything;
* `ModuleGraph.resolve_findClass`: what is found and what is resolved.
-/

namespace SymbolAtlas

open Query

theorem Query.exists_of_any {α : Type} {q : Query α} {s : Store} {p : α → Bool}
    (h : (q.runOn s).1.toOption.any p = true) : ∃ a t, q.runOn s = (.ok a, t) ∧ p a = true := by
  rcases hrun : q.runOn s with ⟨_ | a, t⟩
  · rw [hrun] at h
    cases h
  · rw [hrun] at h
    exact ⟨a, t, rfl, h⟩

/-- What is contributed is the placeholder of the first declaration of that name. -/
theorem ExportedFragment.contributed_of_some {s t : Store} {e : ExportedFragment} {name : Name}
    {d : ClassDescriptor} (h : (e.contributed name).runOn s = (.ok (some d), t)) :
    ∃ declaration, e.declarations.find? (·.shortName == name) = some declaration ∧
      t.placeholders.get? (e.identity, declaration) = some d := by
  unfold contributed at h
  cases hfind : e.declarations.find? (·.shortName == name) with
  | none =>
    rw [hfind] at h
    cases (Prod.mk.inj h).1
  | some declaration =>
    rw [hfind] at h
    dsimp only at h
    rw [← map_eq_pure_bind] at h
    exact ⟨declaration, rfl, placeholder_kept (placeholder_of_some h)⟩

theorem ExportedFragment.declarationFor_of_mem {e : ExportedFragment} {id : ClassId}
    (h : id.qualName ∈ e.declarations) : e.declarationFor id = some id.qualName :=
  if_pos (List.contains_iff_mem.2 h)

theorem ExportedFragment.declarationFor_of_notMem {e : ExportedFragment} {id : ClassId}
    (hpackage : e.package = id.package) (h : id.qualName ∉ e.declarations) :
    e.declarationFor id = e.declarations.find? (·.shortName == id.relative) := by
  rw [declarationFor, declares, if_neg (mt List.contains_iff_mem.1 h), if_pos (beq_iff_eq.2 hpackage)]

/-- What aliases show is declared in a part. -/
theorem Library.Gives.origin_of_alias {l : Library} {c : Services} (h : l.Gives c)
    (hassembled : c.Assembled) {a : AliasFragment} (ha : .aliasing a ∈ c.provider.fragments)
    {name : Name} {d : ClassDescriptor} (hmeans : a.meaning c name = .ok (some d)) :
    d.origin = .deserialized := by
  obtain ⟨e, hexports⟩ := h.of_synthetic ha rfl
  have hbinds := hexports.binds hassembled
  exact Services.origin_of_inParts ((hbinds.alias_meaning ha name).symm.trans hmeans)

/-- The module keeps this placeholder for a declaration that it exports. -/
def Module.Places (m : Module) (s : Store) (declaration : QualName) (k : ClassDescriptor) : Prop :=
  ∃ c e, m.services? s = some c ∧ .exported e ∈ c.provider.fragments ∧
    s.placeholders.get? (e.identity, declaration) = some k

/-- No stored fragment comes after another fragment of its package. -/
theorem Services.Assembled.synthetic_after {c : Services} (h : c.Assembled) {package : QualName}
    {before after : List Fragment} {f : Fragment}
    (hitems : c.provider.packageFragments package = before ++ f :: after) (hf : f.stored? = none) :
    ∀ g ∈ after, g.stored? = none := by
  obtain ⟨synthetic, hfragments, hsynthetic⟩ := h.packageFragments package
  rw [hfragments] at hitems
  intro g hg
  rcases List.append_eq_append_iff.1 hitems with ⟨rest, -, hrest⟩ | ⟨rest, hstored, hrest⟩
  · exact hsynthetic g (by simp [hrest, hg])
  · cases rest with
    | nil => exact hsynthetic g (by rw [List.nil_append] at hrest; simp [← hrest, hg])
    | cons k rest =>
      obtain ⟨rfl, -⟩ := List.cons.inj hrest
      have hmem : f ∈ (c.provider.storedFragments.filter (·.package == package)).map .stored := by
        simp [hstored]
      obtain ⟨g, -, rfl⟩ := List.mem_map.1 hmem
      cases hf

/-- What a filter leaves of the fragments ends with the exported declarations, if they pass it. -/
theorem Library.Exports.filter_last {l : Library} {c : Services} {e : ExportedFragment}
    (h : l.Exports c e) {p : Fragment → Bool} (hp : p (.exported e) = true) :
    ∃ others, c.provider.fragments.filter p = others ++ [.exported e] ∧ ∀ k, .exported k ∉ others := by
  obtain ⟨parts, aliases, hfragments, -⟩ := h.layers
  refine ⟨(parts.map Fragment.stored ++ aliases.map Fragment.aliasing).filter p, ?_, fun k hk => ?_⟩
  · rw [hfragments, ← List.append_assoc, List.filter_append, List.filter_cons, if_pos hp,
      List.filter_nil]
  · simpa using (List.mem_filter.1 hk).1

/-- Nothing comes after the exported declarations. -/
theorem Library.Exports.nothing_after {l : Library} {c : Services} {e : ExportedFragment}
    (h : l.Exports c e) {before after : List Fragment}
    (hitems : c.provider.packageFragments e.package = before ++ .exported e :: after) : after = [] := by
  obtain ⟨others, hfilter, hothers⟩ := h.filter_last (p := (·.package == e.package)) (beq_self_eq_true _)
  have hsplit := hfilter.symm.trans hitems
  obtain ⟨-, -, hafter⟩ := (List.append_cons_inj_of_notMem (hothers e) List.not_mem_nil).1 hsplit
  exact hafter.symm

namespace Pass

variable {s u v w : Store} {c : Services} {id : ClassId} {p : Pass} {m : Module} {d : ClassDescriptor}

theorem order_singleton (p : Pass) (m : Module) : p.order [m] = [m] := by
  cases p <;> rfl

theorem single_none (hs : v.Sound) (hc : v.Serves c) (hm : m.services? v = some c)
    (h : p.found c id = .ok none) :
    ∃ w, v.Grows w ∧ (firstAnswer (p.query id) (p.order [m])).runOn v = (.ok none, w) := by
  have hanswers : Answers Store.Grows (p.query id m) v (Option.map Resolution.anonymous)
      (Option.map (p.resolution m) <$> p.found c id) := query_answers hs hc hm
  rw [h] at hanswers
  obtain ⟨answer, w, hrun, hnone, hw⟩ := hanswers.runOn_eq
  obtain rfl := Option.map_eq_none_iff.1 hnone
  exact ⟨w, hw, by rw [order_singleton, firstAnswer_singleton, hrun]⟩

theorem single_some (hm : m.services? v = some c)
    (h : (firstAnswer (p.ask id) (p.fragments c id)).runOn v = (.ok (some d), w)) :
    (firstAnswer (p.query id) (p.order [m])).runOn v = (.ok (some (p.resolution m d)), w) := by
  rw [order_singleton, firstAnswer_singleton, runOn_query hm, map_eq_pure_bind, runOn_bind_ok h]
  rfl

/-- What offers nothing under the name of the class declares nothing and shows nothing. -/
theorem declared_none {f : Fragment} (h : f.meaning c id.relative = .ok none) :
    declared.meaning c id f = .ok none := by
  cases f with
  | stored f => exact h
  | aliasing a => rfl
  | exported e => rfl

theorem aliased_none {f : Fragment} (h : f.meaning c id.relative = .ok none) :
    aliased.meaning c id f = .ok none := by
  cases f with
  | stored f => rfl
  | aliasing a => exact h
  | exported e => rfl

/-- A pass comes to a fragment that gives its class ever after, when nothing is found before. -/
theorem comes_to (hs : u.Sound) (hc : u.Serves c) {before after : List Fragment} {f : Fragment}
    (hitems : p.fragments c id = before ++ f :: after)
    (hbefore : ∀ g ∈ before, p.meaning c id g = .ok none) (hv : u.Grows v)
    (hf : ∀ v, u.Grows v → ∃ w, (p.ask id f).runOn v = (.ok (some d), w)) :
    ∃ w, (firstAnswer (p.ask id) (p.fragments c id)).runOn v = (.ok (some d), w) := by
  have hmeans : Means (p.ask id) (p.meaning c id) ClassDescriptor.anonymous v (p.fragments c id) :=
    means_fragments (hv.sound hs) (hv.serves hc)
  rw [hitems] at hmeans ⊢
  exact firstAnswer_again (hmeans.mono (List.subset_append_left _ _)) hbefore
    fun w hw => hf w (hv.trans hw)

end Pass

namespace ModuleGraph

variable {u : Store} {c : Services} {id : ClassId} {m : Module}

/-- A graph of one module answers with the first pass that finds anything. -/
theorem resolve_single (hs : u.Sound) (hc : u.Serves c) (hm : m.services? u = some c) {p : Pass}
    {P : ClassDescriptor → Store → Prop}
    (hhigher : ∀ q : Pass, p.rank < q.rank → q.found c id = .ok none)
    (hfinds : ∀ v, u.Grows v →
      ∃ d w, (firstAnswer (p.ask id) (p.fragments c id)).runOn v = (.ok (some d), w) ∧ P d w) :
    ∃ d v, ((⟨[m]⟩ : ModuleGraph).resolve id).runOn u = (.ok (p.resolution m d), v) ∧ P d v := by
  have hmodule {v : Store} (hv : u.Grows v) : m.services? v = some c :=
    (hv.services? m).trans hm
  have hnone {q : Pass} {v : Store} (hq : p.rank < q.rank) (hv : u.Grows v) :
      ∃ w, u.Grows w ∧ (firstAnswer (q.query id) (q.order [m])).runOn v = (.ok none, w) := by
    obtain ⟨w, hw, hrun⟩ := Pass.single_none (hv.sound hs) (hv.serves hc) (hmodule hv) (hhigher q hq)
    exact ⟨w, hv.trans hw, hrun⟩
  rw [resolve_eq]
  cases p with
  | declared =>
    obtain ⟨d, w, hrun, hd⟩ := hfinds u (.refl u)
    rw [runOn_bind_ok (Pass.single_some hm hrun)]
    exact ⟨d, w, rfl, hd⟩
  | aliased =>
    obtain ⟨v₁, hv₁, hrun₁⟩ := hnone (q := .declared) (by decide) (.refl u)
    obtain ⟨d, w, hrun, hd⟩ := hfinds v₁ hv₁
    rw [runOn_bind_ok hrun₁]
    dsimp only
    rw [runOn_bind_ok (Pass.single_some (hmodule hv₁) hrun)]
    exact ⟨d, w, rfl, hd⟩
  | forwardDeclared =>
    obtain ⟨v₁, hv₁, hrun₁⟩ := hnone (q := .declared) (by decide) (.refl u)
    obtain ⟨v₂, hv₂, hrun₂⟩ := hnone (q := .aliased) (by decide) hv₁
    obtain ⟨d, w, hrun, hd⟩ := hfinds v₂ hv₂
    rw [runOn_bind_ok hrun₁]
    dsimp only
    rw [runOn_bind_ok hrun₂]
    dsimp only
    rw [runOn_bind_ok (Pass.single_some (hmodule hv₂) hrun)]
    exact ⟨d, w, rfl, hd⟩

section

variable {d : ClassDescriptor} {before after : List Fragment}

theorem resolve_stored (hs : u.Sound) (hc : u.Serves c) (hm : m.services? u = some c)
    {f : StoredFragment}
    (hitems : c.provider.packageFragments id.package = before ++ .stored f :: after)
    (hbefore : ∀ g ∈ before, g.meaning c id.relative = .ok none)
    (hf : ∀ v, u.Grows v → ∃ w, (f.contributed id.relative).runOn v = (.ok (some d), w)) :
    ∃ v, ((⟨[m]⟩ : ModuleGraph).resolve id).runOn u = (.ok (.declared m d), v) := by
  obtain ⟨k, v, hrun, rfl⟩ := resolve_single (p := .declared) (P := fun k _ => k = d) hs hc hm
    (fun q hq => by cases q <;> exact absurd hq (by decide)) fun v hv => by
      obtain ⟨w, hw⟩ := Pass.comes_to (p := .declared) hs hc hitems
        (fun g hg => Pass.declared_none (hbefore g hg)) hv hf
      exact ⟨d, w, hw, rfl⟩
  exact ⟨v, hrun⟩

theorem resolve_alias (hs : u.Sound) (hc : u.Serves c) (hm : m.services? u = some c)
    (hassembled : c.Assembled) {a : AliasFragment}
    (hitems : c.provider.packageFragments id.package = before ++ .aliasing a :: after)
    (hbefore : ∀ g ∈ before, g.meaning c id.relative = .ok none)
    (ha : ∀ v, u.Grows v → ∃ w, (a.contributed id.relative).runOn v = (.ok (some d), w)) :
    ∃ v, ((⟨[m]⟩ : ModuleGraph).resolve id).runOn u = (.ok (.aliased m d), v) := by
  have hdeclared : Pass.declared.found c id = .ok none := by
    apply findSomeM?_none
    intro g hg
    change g ∈ c.provider.packageFragments id.package at hg
    rw [hitems] at hg
    rcases List.mem_append.1 hg with hg | hg
    · exact Pass.declared_none (hbefore g hg)
    · rcases List.mem_cons.1 hg with rfl | hg
      · rfl
      · have hg := hassembled.synthetic_after hitems rfl g hg
        cases g with
        | stored f => cases hg
        | aliasing a => rfl
        | exported e => rfl
  obtain ⟨k, v, hrun, rfl⟩ := resolve_single (p := .aliased) (P := fun k _ => k = d) hs hc hm
    (fun q hq => by
      cases q with
      | declared => exact hdeclared
      | aliased | forwardDeclared => exact absurd hq (by decide)) fun v hv => by
      obtain ⟨w, hw⟩ := Pass.comes_to (p := .aliased) hs hc hitems
        (fun g hg => Pass.aliased_none (hbefore g hg)) hv ha
      exact ⟨d, w, hw, rfl⟩
  exact ⟨v, hrun⟩

/-- Where only the exported declarations have something for a class, a graph answers with the
placeholder of the one that stands for it. -/
theorem resolve_forwardDeclared (hs : u.Sound) (hc : u.Serves c) (hm : m.services? u = some c)
    {l : Library} {e : ExportedFragment} (hexports : l.Exports c e)
    (hitems : c.provider.packageFragments id.package = before ++ .exported e :: after)
    (hbefore : ∀ g ∈ before, g.meaning c id.relative = .ok none) {declaration : QualName}
    (hdeclaration : e.declarationFor id = some declaration) :
    ∃ k v, ((⟨[m]⟩ : ModuleGraph).resolve id).runOn u = (.ok (.forwardDeclared m k), v) ∧
      u.Grows v ∧ v.placeholders.get? (e.identity, declaration) = some k := by
  have hpackage : e.package = id.package :=
    (Provider.mem_packageFragments.1 (show .exported e ∈ _ by rw [hitems]; simp)).2
  obtain rfl : after = [] := hexports.nothing_after (hpackage ▸ hitems)
  have hcases {g : Fragment} (hg : g ∈ c.provider.packageFragments id.package) :
      g.meaning c id.relative = .ok none ∨ g = .exported e := by
    rw [hitems] at hg
    exact (List.mem_append.1 hg).imp (hbefore g) List.mem_singleton.1
  have hdeclared : Pass.declared.found c id = .ok none :=
    findSomeM?_none fun g hg => (hcases hg).elim Pass.declared_none fun h => h ▸ rfl
  have haliased : Pass.aliased.found c id = .ok none :=
    findSomeM?_none fun g hg => (hcases hg).elim Pass.aliased_none fun h => h ▸ rfl
  obtain ⟨others, hfilter, hothers⟩ := hexports.filter_last (p := Fragment.isSynthetic) rfl
  have hnone : ∀ g ∈ others, Pass.forwardDeclared.meaning c id g = .ok none := by
    intro g hg
    cases g with
    | stored f => rfl
    | aliasing a => rfl
    | exported k => exact absurd hg (hothers k)
  refine resolve_single (p := .forwardDeclared)
    (P := fun k v => u.Grows v ∧ v.placeholders.get? (e.identity, declaration) = some k)
    hs hc hm (fun q hq => ?_) fun v hv => ?_
  · cases q with
    | declared => exact hdeclared
    | aliased => exact haliased
    | forwardDeclared => exact absurd hq (by decide)
  · -- The search comes to the exported declarations, the last fragment.
    have hfragments : Pass.forwardDeclared.fragments c id = others ++ [.exported e] := hfilter
    have hmeans : Means (Pass.ask id .forwardDeclared) (Pass.meaning c id .forwardDeclared)
        ClassDescriptor.anonymous v (Pass.forwardDeclared.fragments c id) :=
      Pass.means_fragments (hv.sound hs) (hv.serves hc)
    rw [hfragments] at hmeans ⊢
    obtain ⟨w, hw, hskip⟩ :=
      firstAnswer_skip [.exported e] (hmeans.mono (List.subset_append_left _ _)) hnone
    have hw := hv.trans hw
    obtain ⟨k, w', hrun, -, hw'⟩ := (e.placeholder_answers (hw.sound hs) declaration).runOn_eq
    refine ⟨k, w', ?_, hw.trans hw', ExportedFragment.placeholder_kept hrun⟩
    rw [hskip, firstAnswer_singleton, Pass.ask, Pass.exportedBy_eq, hdeclaration]
    dsimp only
    rw [map_eq_pure_bind, runOn_bind_ok hrun]
    rfl

end

/-- What the module finds for the class is the placeholder of another declaration of that name, while
the dotted name of the class is exported too. -/
structure Shadowed (l : Library) (id : ClassId) (d : ClassDescriptor) : Prop where
  found : ∃ declaration ∈ l.manifest.exportedForwardDeclarations,
    declaration.shortName = id.relative ∧ d.anonymous = .ofDeclaration 0 declaration
  other : d.classId ≠ id
  exported : id.qualName ∈ l.manifest.exportedForwardDeclarations

section

variable {l : Library} {d : ClassDescriptor} {e : ExportedFragment} {declaration : QualName}
  {before after : List Fragment}

theorem Shadowed.origin (h : Shadowed l id d) : d.origin = .forwardDeclaration := by
  obtain ⟨declaration, -, -, hd⟩ := h.found
  have hanonymous : d.anonymous.origin = .forwardDeclaration := hd ▸ rfl
  exact hanonymous

theorem Shadowed.isSegment (h : Shadowed l id d) : id.relative.IsSegment := by
  obtain ⟨declaration, hmem, hname, -⟩ := h.found
  exact hname ▸ QualName.isSegment_shortName (Manifest.no_blank_of_exported hmem)

/-- An exported declaration of the class's name has its id when it is its dotted name, and not
otherwise. -/
theorem ofQualName_eq_iff (hstated : l.manifest.package = some id.package)
    (hmem : declaration ∈ l.manifest.exportedForwardDeclarations)
    (hname : declaration.shortName = id.relative) :
    ClassId.ofQualName declaration = id ↔ id.qualName = declaration := by
  have hblank := Manifest.no_blank_of_exported hmem
  constructor
  · intro hid
    have hparent : declaration.parent = id.package := (ClassId.mk.inj hid).1
    have houter : declaration.parent.isRoot = false := hparent ▸ Manifest.isRoot_package hstated
    rw [ClassId.qualName, ← hparent, ← hname]
    exact QualName.child_parent_of_outer hblank houter
  · intro hdotted
    rw [← hdotted]
    exact ClassId.ofQualName_qualName (hname ▸ QualName.isSegment_shortName hblank)

theorem shadowed_iff (hexports : l.Exports c e) (hpackage : e.package = id.package)
    (hfirst : e.declarations.find? (·.shortName == id.relative) = some declaration)
    (hd : d.anonymous = .ofDeclaration 0 declaration) :
    Shadowed l id d ↔ id.qualName ≠ declaration ∧ id.qualName ∈ e.declarations := by
  have hmem := List.mem_of_find?_eq_some hfirst
  have hname := List.find?_some hfirst
  have hname : declaration.shortName = id.relative := beq_iff_eq.1 hname
  have hclass : d.classId = .ofQualName declaration := congrArg ClassDescriptor.classId hd
  rw [hexports.declarations] at hmem ⊢
  have hid := ofQualName_eq_iff (hpackage ▸ hexports.package) hmem hname
  constructor
  · intro h
    exact ⟨fun hdotted => h.other (hclass.trans (hid.2 hdotted)), h.exported⟩
  · rintro ⟨hne, hexported⟩
    exact ⟨⟨declaration, hmem, hname, hd⟩, fun hsame => hne (hid.1 (hclass.symm.trans hsame)),
      hexported⟩

/-- Unless a class is shadowed, the declaration that stands for it is the one that the module finds. -/
theorem declarationFor_of_not_shadowed (hexports : l.Exports c e) (hpackage : e.package = id.package)
    (hfirst : e.declarations.find? (·.shortName == id.relative) = some declaration)
    (hd : d.anonymous = .ofDeclaration 0 declaration) (hnot : ¬ Shadowed l id d) :
    e.declarationFor id = some declaration := by
  by_cases hexported : id.qualName ∈ e.declarations
  · have hdotted : id.qualName = declaration := by
      by_contra hne
      exact hnot ((shadowed_iff hexports hpackage hfirst hd).2 ⟨hne, hexported⟩)
    rw [ExportedFragment.declarationFor_of_mem hexported, hdotted]
  · rw [ExportedFragment.declarationFor_of_notMem hpackage hexported, hfirst]

/-- Where a module finds the placeholder of an exported declaration, a graph answers with it, or with
the placeholder of the dotted name if the class is shadowed. -/
theorem resolve_placed (hs : u.Sound) (hc : u.Serves c) (hm : m.services? u = some c)
    (hexports : l.Exports c e)
    (hitems : c.provider.packageFragments id.package = before ++ .exported e :: after)
    (hbefore : ∀ g ∈ before, g.meaning c id.relative = .ok none)
    (hfirst : e.declarations.find? (·.shortName == id.relative) = some declaration)
    (hplaced : u.placeholders.get? (e.identity, declaration) = some d) :
    (¬ Shadowed l id d →
      ∃ v, ((⟨[m]⟩ : ModuleGraph).resolve id).runOn u = (.ok (.forwardDeclared m d), v)) ∧
    (Shadowed l id d → ∃ k v, ((⟨[m]⟩ : ModuleGraph).resolve id).runOn u =
        (.ok (.forwardDeclared m k), v) ∧
      m.Places v id.qualName k ∧ k.anonymous = .ofDeclaration 0 id.qualName ∧ k.classId = id) := by
  have hd : d.anonymous = .ofDeclaration 0 declaration := hs.placeholders _ _ d hplaced
  obtain ⟨hmem, hpackage⟩ : .exported e ∈ c.provider.fragments ∧ e.package = id.package :=
    Provider.mem_packageFragments.1 (show .exported e ∈ _ by rw [hitems]; simp)
  have hanswers {answer : QualName} (hanswer : e.declarationFor id = some answer) :=
    resolve_forwardDeclared hs hc hm hexports hitems hbefore hanswer
  constructor
  · intro hnot
    obtain ⟨k, v, hv, huv, hk⟩ :=
      hanswers (declarationFor_of_not_shadowed hexports hpackage hfirst hd hnot)
    obtain rfl := Option.some.inj ((huv.placeholders _ d hplaced).symm.trans hk)
    exact ⟨v, hv⟩
  · intro hshadowed
    obtain ⟨-, hexported⟩ := (shadowed_iff hexports hpackage hfirst hd).1 hshadowed
    obtain ⟨k, v, hv, huv, hk⟩ := hanswers (ExportedFragment.declarationFor_of_mem hexported)
    have hstands := (huv.sound hs).placeholders _ _ k hk
    have hclass : k.classId = .ofQualName id.qualName := congrArg ClassDescriptor.classId hstands
    exact ⟨k, v, hv, ⟨c, e, (huv.services? m).trans hm, hmem, hk⟩, hstands,
      hclass.trans (ClassId.ofQualName_qualName hshadowed.isSegment)⟩

end

/-- **A module and a graph of it agree.** A class that a module finds is resolved by a graph of this
module to the same descriptor, at once and at any time later. There is one exception: when the module
finds the placeholder of a declaration that does not have the id that was asked for, and exports the
dotted name of the class besides, the graph answers with the placeholder of that name, which has. -/
theorem resolve_findClass {S : Session} (hS : S.Reachable) (hm : m ∈ S.modulesInUse)
    {d : ClassDescriptor} {t : Store} (hfind : (m.findClass id).runOn S.store = (.ok (some d), t))
    (hu : t.Asked u) :
    (∃ l, m.Presents S.store l) ∧ ∀ l, m.Presents S.store l →
      (¬ Shadowed l id d → ∃ r v, ((⟨[m]⟩ : ModuleGraph).resolve id).runOn u = (.ok r, v) ∧
        r.module? = some m ∧ r.descriptor? = some d) ∧
      (Shadowed l id d → ∃ k v, ((⟨[m]⟩ : ModuleGraph).resolve id).runOn u =
          (.ok (.forwardDeclared m k), v) ∧
        m.Places v id.qualName k ∧ k.anonymous = .ofDeclaration 0 id.qualName ∧ k.classId = id) := by
  have hs := hS.sound.store
  cases hc : m.services? S.store with
  | none =>
    rw [Module.findClass, runOn_bind, Module.runOn_services_none hc] at hfind
    cases (Prod.mk.inj hfind).1
  | some c =>
    have hknows := Module.knows_of_services? hc
    have hserves : S.store.Serves c := ⟨hknows, hS.sound.live m hm c hc⟩
    have hassembled := hS.store.tidy.assembled c hknows
    rw [Module.runOn_findClass hc] at hfind
    have ht := (Services.findClass_answers hs hserves id).keeps.leads hfind
    have hu := (hu.changes (ht.sound hs)).grows
    have hgrows := ht.trans hu
    have hmu : m.services? u = some c := (hgrows.services? m).trans hc
    rw [Services.runOn_findClass hserves] at hfind
    obtain ⟨before, f, after, t₀, hitems, hbefore, hmeans, ht₀, hf⟩ :=
      firstAnswer_some (Services.means_contributed hs hserves id.package id.relative) hfind
    have hmem : f ∈ c.provider.packageFragments id.package := by rw [hitems]; simp
    obtain ⟨hmem, hpackage⟩ := Provider.mem_packageFragments.1 hmem
    have hlasts : ∀ v, u.Grows v → ∃ w, (f.contributed id.relative).runOn v = (.ok (some d), w) :=
      fun v hv => Fragment.contributed_lasts (ht₀.sound hs) (ht₀.knows_iff.2 hknows) hmem id.relative d t
        hf v (hu.trans hv)
    refine ⟨(hS.gives c hknows).imp fun l hl => ⟨c, hc, hl⟩, ?_⟩
    rintro l ⟨c', hc', hl⟩
    obtain rfl := Option.some.inj (hc.symm.trans hc')
    cases f with
    | stored f =>
      obtain ⟨v, hv⟩ :=
        resolve_stored (hgrows.sound hs) (hgrows.serves hserves) hmu hitems hbefore hlasts
      have horigin : d.origin = .deserialized :=
        Services.origin_of_classOf (d := d.anonymous) (StoredFragment.classOf_of_meaning hmeans)
      exact ⟨fun _ => ⟨_, v, hv, rfl, rfl⟩, fun h => absurd (horigin.symm.trans h.origin) (by decide)⟩
    | aliasing a =>
      obtain ⟨v, hv⟩ :=
        resolve_alias (hgrows.sound hs) (hgrows.serves hserves) hmu hassembled hitems hbefore hlasts
      have horigin : d.origin = .deserialized :=
        hl.origin_of_alias (d := d.anonymous) hassembled hmem hmeans
      exact ⟨fun _ => ⟨_, v, hv, rfl, rfl⟩, fun h => absurd (horigin.symm.trans h.origin) (by decide)⟩
    | exported e =>
      have hexports := hl.exported hmem
      obtain ⟨declaration, hfirst, hplaced⟩ := ExportedFragment.contributed_of_some hf
      obtain ⟨hagrees, hexception⟩ := resolve_placed (hgrows.sound hs) (hgrows.serves hserves) hmu
        hexports hitems hbefore hfirst (hu.placeholders _ d hplaced)
      refine ⟨fun hnot => ?_, hexception⟩
      obtain ⟨v, hv⟩ := hagrees hnot
      exact ⟨_, v, hv, rfl, rfl⟩

/-- Two names that are exported besides `cnames.structs.Foo`: for one of them a module and a graph of it
agree, the other one is shadowed. -/
theorem resolve_findClass_foo :
    let S := Session.load {} (bindings "app" [] ["cnames.structs.Foo", "app.Foo", "app.Bar"]) {}
    let foo := ClassId.parse "app/Foo"
    let bar := ClassId.parse "app/Bar"
    ∃ m ∈ S.modulesInUse, ∃ l, m.Presents S.store l ∧
      (∃ d t r v, (m.findClass bar).runOn S.store = (.ok (some d), t) ∧ ¬ Shadowed l bar d ∧
        ((⟨[m]⟩ : ModuleGraph).resolve bar).runOn t = (.ok r, v) ∧ r.module? = some m ∧
        r.descriptor? = some d) ∧
      ∃ d t k v, (m.findClass foo).runOn S.store = (.ok (some d), t) ∧ Shadowed l foo d ∧
        ((⟨[m]⟩ : ModuleGraph).resolve foo).runOn t = (.ok (.forwardDeclared m k), v) ∧
        k.classId = foo ∧ d.classId ≠ foo := by
  intro S foo bar
  have hreachable : S.Reachable := .single (.loaded _ _)
  have hanswers : (S.modulesInUse.any fun m =>
      ((m.findClass bar).runOn S.store).1.toOption.any (·.any (·.classId == bar)) &&
        ((m.findClass foo).runOn S.store).1.toOption.any (·.any (·.classId != foo)) &&
        (((⟨[m]⟩ : ModuleGraph).resolve foo).runOn ((m.findClass foo).runOn S.store).2).1.toOption.any
          (·.descriptor?.any (·.classId == foo))) = true := by decide +kernel
  obtain ⟨m, hm, hanswers⟩ := List.any_eq_true.1 hanswers
  simp only [Bool.and_eq_true] at hanswers
  obtain ⟨⟨hbar, hfoo⟩, hresolved⟩ := hanswers
  obtain ⟨v, t, hfind, hv⟩ := exists_of_any hbar
  obtain ⟨d, rfl, hd⟩ := (Option.any_eq_true _ _).1 hv
  obtain ⟨v', t', hfind', hv'⟩ := exists_of_any hfoo
  obtain ⟨d', rfl, hd'⟩ := (Option.any_eq_true _ _).1 hv'
  obtain ⟨⟨l, hl⟩, hagrees⟩ := resolve_findClass hreachable hm hfind .refl
  have hnot : ¬ Shadowed l bar d := fun h => h.other (beq_iff_eq.1 hd)
  obtain ⟨r, w, hrun, hmodule, hsame⟩ := (hagrees l hl).1 hnot
  refine ⟨m, hm, l, hl, ⟨d, t, r, w, hfind, hnot, hrun, hmodule, hsame⟩, ?_⟩
  have hother : d'.classId ≠ foo := bne_iff_ne.1 hd'
  obtain ⟨hsame', hexception⟩ := (resolve_findClass hreachable hm hfind' .refl).2 l hl
  -- The graph answers with another class than the module finds.
  have hshadowed : Shadowed l foo d' := by
    by_contra hnot
    obtain ⟨r, w, hrun, -, hr⟩ := hsame' hnot
    rw [hfind', hrun] at hresolved
    dsimp only [Except.toOption, Option.any_some] at hresolved
    rw [hr] at hresolved
    exact hother (beq_iff_eq.1 hresolved)
  obtain ⟨k, w', hrun', -, -, hk⟩ := hexception hshadowed
  exact ⟨d', t', k, w', hfind', hshadowed, hrun', hk, hother⟩

/-- A module that exports two declarations of one name finds the first, and a graph of the module
resolves the class to the other. -/
theorem resolve_shadowed :
    let S := Session.load {} (bindings "app" [] ["cnames.structs.Foo", "app.Foo"]) {}
    let id := ClassId.parse "app/Foo"
    S.Reachable ∧ ∃ m ∈ S.modulesInUse, ∃ d t r v k, (m.findClass id).runOn S.store = (.ok (some d), t) ∧
      ((⟨[m]⟩ : ModuleGraph).resolve id).runOn t = (.ok r, v) ∧ r.descriptor? = some k ∧ k ≠ d := by
  intro S id
  have hreachable : S.Reachable := .single (.loaded _ _)
  have hdiffer : (S.modulesInUse.any fun m =>
      ((m.findClass id).runOn S.store).1.toOption.any (·.any fun d =>
        (((⟨[m]⟩ : ModuleGraph).resolve id).runOn ((m.findClass id).runOn S.store).2).1.toOption.any
          (·.descriptor?.any (·.classId != d.classId)))) = true := by decide +kernel
  obtain ⟨m, hm, hdiffer⟩ := List.any_eq_true.1 hdiffer
  obtain ⟨v, t, hfind, hv⟩ := exists_of_any hdiffer
  obtain ⟨d, rfl, hd⟩ := (Option.any_eq_true _ _).1 hv
  rw [hfind] at hd
  obtain ⟨r, w, hrun, hr⟩ := exists_of_any hd
  obtain ⟨k, hk, hne⟩ := (Option.any_eq_true _ _).1 hr
  exact ⟨hreachable, m, hm, d, t, r, w, k, hfind, hrun, hk, fun h => bne_iff_ne.1 hne (h ▸ rfl)⟩

end ModuleGraph

end SymbolAtlas
