import SymbolAtlas.Proofs.Name
import SymbolAtlas.Proofs.Symbols.Graph
import SymbolAtlas.Proofs.Symbols.Provenance

/-!
# What an answer has to do with the class that was asked for

A resolution answers with a class of the id that was asked for, with what an alias shows in its
place, or with the placeholder of an exported declaration. Exports go by dotted names, in which a
nested class cannot be told from a package.

* `ModuleGraph.resolve_from`: what an answer comes from, also where some look-ups fail;
* `ModuleGraph.resolve_about`: what is so of the class that is answered;
* `ModuleGraph.resolve_exported`: a class that a module exports a declaration of is found.
-/

namespace SymbolAtlas

open Query

theorem ExportedFragment.declarationFor_some {e : ExportedFragment} {id : ClassId}
    {declaration : QualName} (h : e.declarationFor id = some declaration) :
    declaration ∈ e.declarations ∧
      (declaration = id.qualName ∨ e.package = id.package ∧ declaration.shortName = id.relative) := by
  unfold declarationFor at h
  split at h
  · rename_i hdeclares
    obtain rfl := Option.some.inj h
    exact ⟨List.contains_iff_mem.1 hdeclares, .inl rfl⟩
  · split at h
    · rename_i hpackage
      have hname := List.find?_some h
      exact ⟨List.mem_of_find?_eq_some h, .inr ⟨beq_iff_eq.1 hpackage, beq_iff_eq.1 hname⟩⟩
    · cases h

theorem ExportedFragment.placeholder_of_some {s t : Store} {e : ExportedFragment}
    {declaration : QualName} {d : ClassDescriptor}
    (h : (some <$> e.placeholder declaration).runOn s = (.ok (some d), t)) :
    (e.placeholder declaration).runOn s = (.ok d, t) := by
  rw [map_eq_pure_bind] at h
  obtain ⟨d', t', hplace, hpure⟩ := runOn_bind_eq_ok h
  obtain ⟨hd, rfl⟩ := Prod.mk.inj hpure
  rw [hplace, Option.some.inj (Except.ok.inj hd)]

namespace Pass

variable {s u t : Store} {id : ClassId} {p : Pass} {m : Module} {modules : List Module}

/-- An answer of a pass is what it finds in the fragments of one of the modules. -/
theorem answer_from (hs : s.Sound)
    (hlive : ∀ m ∈ modules, ∀ c, m.services? s = some c → s.hasEnded c.provider.identity = false)
    (hu : s.Grows u) {r : Resolution}
    (h : (firstAnswer (p.query id) (p.order modules)).runOn u = (.ok (some r), t)) :
    ∃ m ∈ modules, ∃ c d v, r = p.resolution m d ∧ m.services? s = some c ∧ s.Grows v ∧
      (firstAnswer (p.ask id) (p.fragments c id)).runOn v = (.ok (some d), t) := by
  obtain ⟨before, m, after, v, horder, -, -, hv, hquery⟩ := firstAnswer_some (query_means hs hlive hu) h
  have hv := hu.trans hv
  have hservices := hv.services? m
  refine ⟨m, mem_order.1 (by rw [horder]; simp), ?_⟩
  cases hc : m.services? s with
  | none =>
    rw [runOn_query_none (hservices.trans hc)] at hquery
    cases (Prod.mk.inj hquery).1
  | some c =>
    rw [runOn_query (hservices.trans hc), map_eq_pure_bind] at hquery
    obtain ⟨answer, t', hfirst, hpure⟩ := runOn_bind_eq_ok hquery
    obtain ⟨hanswer, rfl⟩ := Prod.mk.inj hpure
    obtain ⟨d, rfl, hr⟩ := Option.map_eq_some_iff.1 (Except.ok.inj hanswer)
    exact ⟨c, d, v, hr.symm, rfl, hv, hfirst⟩

/-- What a pass finds in a module is what one of the fragments gives. -/
theorem answer_fragment {c : Services} {d : ClassDescriptor} (hs : u.Sound) (hc : u.Serves c)
    (h : (firstAnswer (p.ask id) (p.fragments c id)).runOn u = (.ok (some d), t)) :
    ∃ f ∈ p.fragments c id, p.meaning c id f = .ok (some d.anonymous) ∧
      ∃ v, u.Grows v ∧ (p.ask id f).runOn v = (.ok (some d), t) := by
  obtain ⟨before, f, after, v, hitems, -, hmeans, hv, hask⟩ := firstAnswer_some (means_fragments hs hc) h
  exact ⟨f, by rw [hitems]; simp, hmeans, v, hv, hask⟩

theorem firstAnswer_grows (hs : s.Sound)
    (hlive : ∀ m ∈ modules, ∀ c, m.services? s = some c → s.hasEnded c.provider.identity = false)
    (hu : s.Grows u) {r : Except LoadError (Option Resolution)}
    (h : (firstAnswer (p.query id) (p.order modules)).runOn u = (r, t)) : u.Grows t := by
  have hkeeps : Keeps Store.Grows (firstAnswer (p.query id) (p.order modules)) u :=
    Keeps.firstAnswer Store.Grows.refl fun m hm v hv => (query_means hs hlive hu m hm v hv).keeps
  exact hkeeps.leads h

end Pass

namespace ModuleGraph

variable {s t : Store} {id : ClassId} {g : ModuleGraph}

/-- An answer comes from a pass that finds something in the fragments of a module, or, if there is
none, from all passes through all modules. -/
theorem resolve_from (hs : s.Sound)
    (hlive : ∀ m ∈ g.modules, ∀ c, m.services? s = some c → s.hasEnded c.provider.identity = false)
    {r : Resolution} (h : (g.resolve id).runOn s = (.ok r, t)) :
    (r = .notFound ∧ ∀ p : Pass, ∀ m ∈ g.modules, p.means s id m = .ok none) ∨
      ∃ p : Pass, ∃ m ∈ g.modules, ∃ c d u, r = p.resolution m d ∧ m.services? s = some c ∧ s.Grows u ∧
        (firstAnswer (p.ask id) (p.fragments c id)).runOn u = (.ok (some d), t) := by
  rw [resolve_eq] at h
  have hnone {p : Pass} {u v : Store} (hu : s.Grows u)
      (hrun : (firstAnswer (p.query id) (p.order g.modules)).runOn u = (.ok none, v)) :
      ∀ m ∈ g.modules, p.means s id m = .ok none :=
    fun m hm => firstAnswer_none (Pass.query_means hs hlive hu) hrun m (Pass.mem_order.2 hm)
  obtain ⟨answer, u₁, hrun₁, h⟩ := runOn_bind_eq_ok h
  have hu₁ := Pass.firstAnswer_grows hs hlive (.refl s) hrun₁
  cases answer with
  | some r' =>
    obtain ⟨hr, rfl⟩ := Prod.mk.inj h
    obtain rfl := Except.ok.inj hr
    exact .inr ⟨.declared, Pass.answer_from hs hlive (.refl s) hrun₁⟩
  | none =>
    obtain ⟨answer, u₂, hrun₂, h⟩ := runOn_bind_eq_ok h
    have hu₂ := hu₁.trans (Pass.firstAnswer_grows hs hlive hu₁ hrun₂)
    cases answer with
    | some r' =>
      obtain ⟨hr, rfl⟩ := Prod.mk.inj h
      obtain rfl := Except.ok.inj hr
      exact .inr ⟨.aliased, Pass.answer_from hs hlive hu₁ hrun₂⟩
    | none =>
      obtain ⟨answer, u₃, hrun₃, h⟩ := runOn_bind_eq_ok h
      cases answer with
      | some r' =>
        obtain ⟨hr, rfl⟩ := Prod.mk.inj h
        obtain rfl := Except.ok.inj hr
        exact .inr ⟨.forwardDeclared, Pass.answer_from hs hlive hu₂ hrun₃⟩
      | none =>
        obtain ⟨hr, -⟩ := Prod.mk.inj h
        refine .inl ⟨(Except.ok.inj hr).symm, fun p => ?_⟩
        cases p with
        | declared => exact hnone (.refl s) hrun₁
        | aliased => exact hnone hu₁ hrun₂
        | forwardDeclared => exact hnone hu₂ hrun₃

/-- What is so of the answer to a class that was asked for, `t` being the store after it and `l` the
library of the module that answers. -/
inductive About (l : Library) (id : ClassId) (t : Store) : Resolution → Prop
  | declared {m : Module} {d : ClassDescriptor} (hid : d.classId = id) : About l id t (.declared m d)
  /-- The class of the module's own package, as look-ups of that class give it. -/
  | aliased {m : Module} {package : QualName} {d : ClassDescriptor}
      (hspace : ∃ space : ForwardNamespace, space.package = id.package)
      (hpackage : l.manifest.package = some package) (hid : d.classId = ⟨package, id.relative⟩)
      (hsame : ∀ u, t.Asked u → ((m.findClass ⟨package, id.relative⟩).runOn u).1 = .ok (some d)) :
      About l id t (.aliased m d)
  /-- The placeholder of a declaration that the module exports: of the dotted name of the class, or
  from the package of the class under its name. -/
  | forwardDeclared {m : Module} {c : Services} {e : ExportedFragment} {declaration : QualName}
      {d : ClassDescriptor} (hc : m.services? t = some c) (he : .exported e ∈ c.provider.fragments)
      (hplaced : t.placeholders.get? (e.identity, declaration) = some d)
      (hdeclaration : declaration ∈ l.manifest.exportedForwardDeclarations)
      (hd : d.anonymous = .ofDeclaration 0 declaration)
      (hid : d.classId = .ofQualName id.qualName ∧ (id.relative.IsSegment → d.classId = id) ∨
        l.manifest.package = some id.package ∧ d.classId.relative = id.relative) :
      About l id t (.forwardDeclared m d)

section

variable {u : Store} {c : Services} {m : Module} {l : Library} {d : ClassDescriptor}

theorem about_declared (hs : u.Sound) (hc : u.Serves c)
    (h : (firstAnswer (Pass.declared.ask id) (Pass.declared.fragments c id)).runOn u =
      (.ok (some d), t)) : About l id t (.declared m d) := by
  obtain ⟨f, hf, hmeans, -⟩ := Pass.answer_fragment hs hc h
  cases f with
  | stored f =>
    have hpackage : f.package = id.package := (Provider.mem_packageFragments.1 hf).2
    have hclass := Services.classId_of_classOf (StoredFragment.classOf_of_meaning hmeans)
    rw [hpackage] at hclass
    exact .declared hclass
  | aliasing a => cases hmeans
  | exported e => cases hmeans

theorem about_aliased (hs : u.Sound) (hc : u.Serves c) (hm : m.services? u = some c)
    (hassembled : c.Assembled) (hl : l.Gives c)
    (h : (firstAnswer (Pass.aliased.ask id) (Pass.aliased.fragments c id)).runOn u =
      (.ok (some d), t)) : About l id t (.aliased m d) := by
  obtain ⟨f, hf, hmeans, v, hv, hask⟩ := Pass.answer_fragment hs hc h
  cases f with
  | stored f => cases hmeans
  | exported e => cases hmeans
  | aliasing a =>
    obtain ⟨hmem, hspace⟩ := Provider.mem_packageFragments.1 hf
    obtain ⟨e, hexports⟩ := hl.of_synthetic hmem rfl
    have hbinds := hexports.binds hassembled
    have hvs := hv.sound hs
    have hvc := (hv.serves hc).knows
    have hparts : c.inParts ⟨e.package, id.relative⟩ = .ok (some d.anonymous) :=
      (hbinds.alias_meaning hmem id.relative).symm.trans hmeans
    have hclass := Services.classOf_of_inParts hparts
    have hid : d.classId = ⟨e.package, id.relative⟩ :=
      Services.classId_of_classOf (d := d.anonymous) hclass
    have horigin : d.origin = .deserialized := Services.origin_of_classOf (d := d.anonymous) hclass
    -- The target that answered lies in the library's package, so the class is remembered there.
    have htargets : ∀ f ∈ a.targets, v.Holds c f := fun f hf => ⟨hvc, hvs.targets c hvc a hmem f hf⟩
    obtain ⟨f, hf, hremembers⟩ := AliasFragment.go_some hvs htargets hask
    have hpackage : f.package = e.package := by
      rw [hbinds.targets a hmem] at hf
      exact beq_iff_eq.1 (List.mem_filter.1 hf).2
    rw [hpackage] at hremembers
    refine .aliased ⟨a.space, hspace⟩ hexports.package hid fun w hw => ?_
    have ht : u.Grows t := hv.trans ((AliasFragment.go_keeps hvs htargets id.relative).leads hask).grows
    have hw := (hw.changes (ht.sound hs)).grows
    have hgrows := ht.trans hw
    exact Module.lookUp_remembered ⟨e.package, id.relative⟩ (hgrows.sound hs)
      ((hgrows.services? m).trans hm) (hgrows.serves hc) hbinds (fun _ _ _ => rfl)
      (Services.found_of_inParts hassembled hparts) horigin
      (hw.classes _ _ _ hremembers) .finding

theorem about_forwardDeclared (hs : u.Sound) (hc : u.Serves c) (hm : m.services? u = some c)
    (hl : l.Gives c)
    (h : (firstAnswer (Pass.forwardDeclared.ask id) (Pass.forwardDeclared.fragments c id)).runOn u =
      (.ok (some d), t)) : About l id t (.forwardDeclared m d) := by
  obtain ⟨f, hf, hmeans, v, hv, hask⟩ := Pass.answer_fragment hs hc h
  have hf := Pass.mem_fragments hf
  cases f with
  | stored f => cases hmeans
  | aliasing a => cases hmeans
  | exported e =>
    obtain ⟨declaration, hdeclaration, hd⟩ := Option.map_eq_some_iff.1 (Except.ok.inj hmeans)
    have hexports := hl.exported hf
    obtain ⟨hmem, hnames⟩ := ExportedFragment.declarationFor_some hdeclaration
    rw [Pass.ask, Pass.exportedBy_eq, hdeclaration] at hask
    have hplace := ExportedFragment.placeholder_of_some hask
    have ht := hv.trans ((e.placeholder_keeps declaration).leads hplace).grows
    have hclassId : d.classId = .ofQualName declaration :=
      congrArg ClassDescriptor.classId hd.symm
    refine .forwardDeclared ((ht.services? m).trans hm) hf
      (ExportedFragment.placeholder_kept hplace) (hexports.declarations ▸ hmem) hd.symm ?_
    rcases hnames with rfl | ⟨hpackage, hname⟩
    · exact .inl ⟨hclassId, fun hsegment => hclassId.trans (ClassId.ofQualName_qualName hsegment)⟩
    · exact .inr ⟨hpackage ▸ hexports.package, by rw [hclassId]; exact hname⟩

end

/-- **The answer is about the class that was asked for.** Whatever modules the graph has, and whether
or not look-ups fail that come after the answer: a class that is declared has the id that was asked
for; an alias shows, in a reserved namespace, the class of that name in the package of the module that
answers; and what stands for a class is the placeholder of a declaration that the module exports. The
declaration is the dotted name of the class, so that a class of a single segment has its own id, or it
is exported from the package of the class under the name that was asked for. -/
theorem resolve_about {S : Session} (hS : S.Reachable) {g : ModuleGraph}
    (hmodules : ∀ m ∈ g.modules, m ∈ S.modulesInUse) {r : Resolution}
    (hrun : (g.resolve id).runOn S.store = (.ok r, t)) {m : Module} (hm : r.module? = some m) :
    m ∈ g.modules ∧ (∃ l, m.Presents S.store l) ∧ ∀ l, m.Presents S.store l → About l id t r := by
  have hs := hS.sound.store
  have hlive : ∀ m ∈ g.modules, ∀ c, m.services? S.store = some c →
      S.store.hasEnded c.provider.identity = false := fun m hm => hS.sound.live m (hmodules m hm)
  rcases resolve_from hs hlive hrun with ⟨rfl, -⟩ | ⟨p, k, hk, c, d, u, rfl, hc, hu, hfirst⟩
  · cases hm
  obtain rfl : k = m := by cases p <;> exact Option.some.inj hm
  have hknows := Module.knows_of_services? hc
  obtain ⟨l, hl⟩ := hS.gives c hknows
  refine ⟨hk, ⟨l, c, hc, hl⟩, ?_⟩
  rintro l' ⟨c', hc', hl'⟩
  obtain rfl := Option.some.inj (hc.symm.trans hc')
  have hserves := hu.serves ⟨hknows, hlive k hk c hc⟩
  have hku : k.services? u = some c := (hu.services? k).trans hc
  cases p with
  | declared => exact about_declared (hu.sound hs) hserves hfirst
  | aliased =>
    exact about_aliased (hu.sound hs) hserves hku (hS.store.tidy.assembled c hknows) hl' hfirst
  | forwardDeclared => exact about_forwardDeclared (hu.sound hs) hserves hku hl' hfirst

/-- The class is shown by an alias, and has the package of the module that answers. -/
theorem resolve_about_windows :
    let id := ClassId.parse "cnames.structs/SDL_Window"
    ∃ m d t, ((⟨windows.modulesInUse⟩ : ModuleGraph).resolve id).runOn windows.store =
        (.ok (.aliased m d), t) ∧
      ∃ l, m.Presents windows.store l ∧ About l id t (.aliased m d) := by
  intro id
  have hreachable : windows.Reachable := .tail (.tail .refl (.loaded _ _)) (.loaded _ _)
  have hrank : (((⟨windows.modulesInUse⟩ : ModuleGraph).resolve id).runOn windows.store).1.map
      Resolution.rank = .ok 2 := by decide +kernel
  rcases hrun : ((⟨windows.modulesInUse⟩ : ModuleGraph).resolve id).runOn windows.store with ⟨e | r, t⟩
  · rw [hrun] at hrank
    cases hrank
  · rw [hrun] at hrank
    have hrank : r.rank = 2 := Except.ok.inj hrank
    cases r with
    | aliased m d =>
      obtain ⟨-, ⟨l, hl⟩, habout⟩ := resolve_about hreachable (fun _ hm => hm) hrun rfl
      exact ⟨m, d, t, rfl, l, hl, habout l hl⟩
    | declared m d => cases hrank
    | forwardDeclared m d => cases hrank
    | notFound => cases hrank

/-- A session with a library that exports a declaration in a reserved namespace. -/
def exporting : Session :=
  Session.load {} (bindings "app" [] ["cnames.structs.SDL_Window"]) {}

/-- Asked for a nested class, a graph answers with the placeholder of a class that is not nested: it
has neither the id that was asked for nor the package of the module. -/
theorem resolve_nested :
    let id := ClassId.parse "cnames/structs.SDL_Window"
    exporting.Reachable ∧ ∃ m ∈ exporting.modulesInUse, ∃ d t,
      ((⟨exporting.modulesInUse⟩ : ModuleGraph).resolve id).runOn exporting.store =
        (.ok (.forwardDeclared m d), t) ∧
      d.classId ≠ id ∧ m.library.manifest.package ≠ some id.package := by
  intro id
  have hreachable : exporting.Reachable := .single (.loaded _ _)
  have hanswer : (((⟨exporting.modulesInUse⟩ : ModuleGraph).resolve id).runOn exporting.store).1.map
      (fun r => (r.rank, r.descriptor?.map (·.classId))) =
      .ok (1, some (ClassId.parse "cnames.structs/SDL_Window")) := by decide +kernel
  have hne : ClassId.parse "cnames.structs/SDL_Window" ≠ id := by decide +kernel
  have hpackage : ∀ m ∈ exporting.modulesInUse, m.library.manifest.package ≠ some id.package := by
    decide +kernel
  rcases hrun : ((⟨exporting.modulesInUse⟩ : ModuleGraph).resolve id).runOn exporting.store
    with ⟨e | r, t⟩
  · rw [hrun] at hanswer
    cases hanswer
  · rw [hrun] at hanswer
    obtain ⟨hrank, hclass⟩ := Prod.mk.inj (Except.ok.inj hanswer)
    rcases resolve_from hreachable.sound.store hreachable.sound.live hrun with
      ⟨rfl, -⟩ | ⟨p, m, hm, c, d, u, rfl, -⟩
    · cases hrank
    · cases p with
      | forwardDeclared =>
        have hclass : d.classId = _ := Option.some.inj hclass
        exact ⟨hreachable, m, hm, d, t, rfl, hclass ▸ hne, hpackage m hm⟩
      | declared => cases hrank
      | aliased => cases hrank

/-- **No exported declaration is lost.** A declaration that a module of native bindings exports, and
that does not begin with a dot, is found in every graph that has the module: unless a look-up fails,
resolving the class of that dotted name gives an answer, and whenever there is an answer it is a class.
Without a slash the dotted name is the class's text. -/
theorem resolve_exported {S : Session} (hS : S.Reachable) {g : ModuleGraph}
    (hmodules : ∀ m ∈ g.modules, m ∈ S.modulesInUse) {m : Module} (hm : m ∈ g.modules) {l : Library}
    (hl : m.Presents S.store l) (hinterop : l.manifest.isInterop = true) {d : QualName}
    (hd : d ∈ l.manifest.exportedForwardDeclarations) (hdot : d.chars.head? ≠ some '.') :
    ((∀ k ∈ g.modules, k.Readable S.store (.ofQualName d)) →
      ∃ r t, (g.resolve (.ofQualName d)).runOn S.store = (.ok r, t) ∧ r ≠ .notFound) ∧
    (∀ r t, (g.resolve (.ofQualName d)).runOn S.store = (.ok r, t) → r ≠ .notFound) ∧
    ('/' ∉ d.chars → ClassId.parse d.text = .ofQualName d) := by
  obtain ⟨c, hc, hgives⟩ := hl
  obtain ⟨e, hexports⟩ := hgives.interop hinterop
  have hname : (ClassId.ofQualName d).qualName = d :=
    ClassId.qualName_ofQualName (Manifest.no_blank_of_exported hd) hdot
  have hdeclares : e.declarationFor (.ofQualName d) = some d := by
    rw [ExportedFragment.declarationFor, hname, if_pos]
    rw [ExportedFragment.declares, hexports.declarations]
    exact List.contains_iff_mem.2 hd
  have hfragment : .exported e ∈ Pass.forwardDeclared.fragments c (.ofQualName d) :=
    List.mem_filter.2 ⟨hexports.mem, rfl⟩
  have hmeaning : Pass.meaning c (.ofQualName d) .forwardDeclared (.exported e) =
      .ok (some (.ofDeclaration 0 d)) := by
    rw [Pass.meaning, hdeclares]
    rfl
  have hfound : ∀ r t, (g.resolve (.ofQualName d)).runOn S.store = (.ok r, t) → r ≠ .notFound := by
    intro r t hrun hr
    rcases resolve_from hS.sound.store (fun m hm => hS.sound.live m (hmodules m hm)) hrun with
      ⟨-, hnone⟩ | ⟨p, k, -, c, d, u, rfl, -⟩
    · have hmeans := hnone .forwardDeclared m hm
      rw [Pass.means, hc] at hmeans
      obtain ⟨v, hv, hmap⟩ := except_map_eq_ok.1 hmeans
      obtain rfl := Option.map_eq_none_iff.1 hmap
      cases findSomeM?_some hv hfragment hmeaning
    · cases p <;> cases hr
  refine ⟨fun hread => ?_, hfound, ClassId.parse_text⟩
  obtain ⟨r, t, hrun, -⟩ :=
    resolve_outcome hS.sound.store (legible_of_readable hS.sound hmodules hread) (.refl _)
  exact ⟨r, t, hrun, hfound r t hrun⟩

/-- A declaration of a nested name in no reserved namespace, exported by a module without classes, is
found in a graph with another module. -/
theorem resolve_exported_outer :
    let l := bindings "app" [] ["outer.Inner..Deep."]
    let S := (Session.load {} (bindings "video" ["SDL_Window"] []) {}).load l {}
    let d := QualName.ofText "outer.Inner..Deep."
    ∃ m ∈ S.modulesInUse, m.Presents S.store l ∧ l.manifest.isInterop = true ∧
      d ∈ l.manifest.exportedForwardDeclarations ∧ d.chars.head? ≠ some '.' ∧
      (∀ k ∈ S.modulesInUse, k.Readable S.store (.ofQualName d)) ∧
      (∃ r t, ((⟨S.modulesInUse⟩ : ModuleGraph).resolve (.ofQualName d)).runOn S.store = (.ok r, t) ∧
        r ≠ .notFound) ∧
      ClassId.parse d.text = .ofQualName d := by
  intro l S d
  have hreachable : S.Reachable := .tail (.tail .refl (.loaded _ _)) (.loaded _ _)
  have hfirst : (Session.load {} (bindings "video" ["SDL_Window"] []) {}).Reachable :=
    .single (.loaded _ _)
  have hok : ((Module.load l {}).runOn
      (Session.load {} (bindings "video" ["SDL_Window"] []) {}).store).1.isOk = true := by decide +kernel
  have hinterop : l.manifest.isInterop = true := by decide +kernel
  have hd : d ∈ l.manifest.exportedForwardDeclarations := by decide +kernel
  have hdot : d.chars.head? ≠ some '.' := by decide +kernel
  have hslash : '/' ∉ d.chars := by decide +kernel
  have hread : ∀ k ∈ S.modulesInUse, k.Readable S.store (.ofQualName d) := by decide +kernel
  rcases hload : (Module.load l {}).runOn
    (Session.load {} (bindings "video" ["SDL_Window"] []) {}).store with ⟨e | m, t⟩
  · rw [hload] at hok
    cases hok
  · obtain ⟨hm, hl⟩ := Session.presents_load hfirst.sound hload
    obtain ⟨hfound, -, hparse⟩ :=
      resolve_exported (g := ⟨S.modulesInUse⟩) hreachable (fun _ hm => hm) hm hl hinterop hd hdot
    exact ⟨m, hm, hl, hinterop, hd, hdot, hread, hfound hread, hparse hslash⟩

end ModuleGraph

end SymbolAtlas
