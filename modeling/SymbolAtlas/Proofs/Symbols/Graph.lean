import SymbolAtlas.Proofs.Symbols.Offers
import SymbolAtlas.Proofs.Symbols.Session

/-!
# Which module answers

Resolving a class in a graph, at any time in any session: a declaration answers before an alias, an
alias before an exported declaration, and of the modules that can answer alike it is the first that
does, or the last where exports are concerned.

* `Answer`: which answer is right for modules in this order;
* `resolve_outcome`: the passes of a resolution, one after the other;
* `resolve_answer`: the answer is right. The order of the modules makes no difference to how the
  class is known, a single module that can answer does in any order, and one more module never makes
  the class less known.
-/

namespace SymbolAtlas

open Query

/-- How well a class is known. -/
def Resolution.rank : Resolution → Nat
  | declared _ _ => 3
  | aliased _ _ => 2
  | forwardDeclared _ _ => 1
  | notFound => 0

namespace Pass

/-- How well a class is known that the pass finds. -/
def rank : Pass → Nat
  | declared => 3
  | aliased => 2
  | forwardDeclared => 1

def order (p : Pass) (modules : List Module) : List Module :=
  match p with
  | forwardDeclared => modules.reverse
  | _ => modules

def means (s : Store) (id : ClassId) (p : Pass) (m : Module) : Except LoadError (Option Resolution) :=
  match m.services? s with
  | some c => Option.map (p.resolution m) <$> p.found c id
  | none => throw (.moduleNotInitialized m.name.text)

variable {s u : Store} {id : ClassId} {p : Pass} {m : Module} {c : Services} {modules : List Module}

@[simp] theorem rank_resolution (m : Module) (d : ClassDescriptor) :
    (p.resolution m d).rank = p.rank := by
  cases p <;> rfl

theorem resolution_inj {d d' : ClassDescriptor} (h : p.resolution m d = p.resolution m d') :
    d = d' := by
  cases p <;> cases h <;> rfl

theorem rank_inj {q : Pass} (h : p.rank = q.rank) : p = q := by
  cases p <;> cases q <;> simp_all [rank]

theorem mem_order : m ∈ p.order modules ↔ m ∈ modules := by
  cases p <;> simp [order]

theorem means_of_legible (hm : m.Legible s id c) :
    p.means s id m = Option.map (p.resolution m) <$> p.found c id := by
  rw [means, hm.services]

theorem means_ok (hs : s.Sound) (hm : m.Legible s id c) :
    ∃ v, p.means s id m = .ok v ∧ (v.isSome ↔ p.Offers s id m) := by
  obtain ⟨v, hv, hiff⟩ := found_ok (p := p) hs hm
  rw [means_of_legible hm, hv]
  exact ⟨v.map (p.resolution m), rfl, by rw [Option.isSome_map]; exact hiff⟩

theorem runOn_query_none (hm : m.services? s = none) :
    (p.query id m).runOn s = (.error (.moduleNotInitialized m.name.text), s) := by
  cases p with
  | declared => rw [query, ModuleGraph.declaredIn, runOn_bind, Module.runOn_packageFragments_none hm]
  | aliased => rw [query, ModuleGraph.aliasedIn, runOn_bind, Module.runOn_packageFragments_none hm]
  | forwardDeclared => rw [query, ModuleGraph.forwardDeclaredIn, runOn_bind, Module.runOn_provider_none hm]

/-- Modules in use answer what they mean, those without services included. -/
theorem query_means (hs : s.Sound)
    (hlive : ∀ m ∈ modules, ∀ c, m.services? s = some c → s.hasEnded c.provider.identity = false)
    (hu : s.Grows u) :
    Means (p.query id) (p.means s id) Resolution.anonymous u (p.order modules) := by
  intro m hm t ht
  have ht := hu.trans ht
  have hservices := ht.services? m
  rw [means]
  cases hc : m.services? s with
  | none =>
    have hrun : (p.query id m).runOn t = (.error (.moduleNotInitialized m.name.text), t) :=
      runOn_query_none (hservices.trans hc)
    exact ⟨by rw [hrun]; exact .refl t, by rw [hrun]; rfl⟩
  | some c =>
    have hserves := ht.serves ⟨Module.knows_of_services? hc, hlive m (mem_order.1 hm) c hc⟩
    exact query_answers (ht.sound hs) hserves (hservices.trans hc)

/-- The module `m` answers with `d`, which it gives to the store `t`. -/
structure Wins (s u : Store) (id : ClassId) (modules : List Module) (p : Pass) (m : Module)
    (d : ClassDescriptor) (t : Store) : Prop where
  offers : p.Offers s id m
  first : ∃ before after, p.order modules = before ++ m :: after ∧ ∀ k ∈ before, ¬ p.Offers s id k
  asked : ∃ t₀, u.Grows t₀ ∧ (p.query id m).runOn t₀ = (.ok (some (p.resolution m d)), t)

theorem Wins.earlier {u' : Store} {d : ClassDescriptor} {t : Store}
    (h : p.Wins s u' id modules m d t) (hu : u.Grows u') : p.Wins s u id modules m d t := by
  obtain ⟨t₀, ht₀, hquery⟩ := h.asked
  exact ⟨h.offers, h.first, t₀, hu.trans ht₀, hquery⟩

/-- What a pass comes to. -/
theorem pass_cases (hs : s.Sound) (hmodules : ∀ m ∈ modules, ∃ c, m.Legible s id c) (hu : s.Grows u) :
    (∃ t, (firstAnswer (p.query id) (p.order modules)).runOn u = (.ok none, t) ∧ u.Grows t ∧
      ∀ m ∈ modules, ¬ p.Offers s id m) ∨
    ∃ m d t, (firstAnswer (p.query id) (p.order modules)).runOn u =
      (.ok (some (p.resolution m d)), t) ∧ p.Wins s u id modules m d t := by
  have hlive : ∀ m ∈ modules, ∀ c, m.services? s = some c → s.hasEnded c.provider.identity = false := by
    intro m hm c hc
    obtain ⟨c', hc'⟩ := hmodules m hm
    exact Option.some.inj (hc'.services.symm.trans hc) ▸ hc'.live
  have hmeans : Means (p.query id) (p.means s id) Resolution.anonymous u (p.order modules) :=
    query_means hs hlive hu
  have hok : ∀ m ∈ p.order modules, ∃ v, p.means s id m = .ok v := by
    intro m hm
    obtain ⟨c, hc⟩ := hmodules m (mem_order.1 hm)
    obtain ⟨v, hv, -⟩ := means_ok (p := p) hs hc
    exact ⟨v, hv⟩
  have hnone {k : Module} (hk : k ∈ p.order modules) (h : p.means s id k = .ok none) :
      ¬ p.Offers s id k := by
    obtain ⟨c, hc⟩ := hmodules k (mem_order.1 hk)
    obtain ⟨v, hv, hiff⟩ := means_ok (p := p) hs hc
    obtain rfl := Except.ok.inj (hv.symm.trans h)
    simpa using hiff
  obtain ⟨r, t, hrun⟩ := firstAnswer_ok hmeans hok
  cases r with
  | none =>
    have hkeeps : Keeps Store.Grows (firstAnswer (p.query id) (p.order modules)) u :=
      Keeps.firstAnswer Store.Grows.refl fun m hm t ht => (hmeans m hm t ht).keeps
    rw [Keeps, hrun] at hkeeps
    refine .inl ⟨t, hrun, hkeeps, fun m hm => ?_⟩
    exact hnone (mem_order.2 hm) (firstAnswer_none hmeans hrun m (mem_order.2 hm))
  | some r =>
    obtain ⟨before, m, after, t₀, horder, hbefore, hm, ht₀, hquery⟩ := firstAnswer_some hmeans hrun
    have hmem : m ∈ p.order modules := by rw [horder]; simp
    obtain ⟨c, hc⟩ := hmodules m (mem_order.1 hmem)
    obtain ⟨v, hv, hiff⟩ := means_ok (p := p) hs hc
    obtain rfl := Except.ok.inj (hv.symm.trans hm)
    have hct := (hc.grows hu).grows ht₀
    obtain ⟨d, rfl, -⟩ := query_found (ht₀.sound (hu.sound hs)) hct.serves hct.services hquery
    refine .inr ⟨m, d, t, hrun, hiff.1 rfl, ⟨before, after, horder, fun k hk => ?_⟩, t₀, ht₀, hquery⟩
    exact hnone (by rw [horder]; exact List.mem_append_left _ hk) (hbefore k hk)

theorem Wins.found {d : ClassDescriptor} {t : Store} (h : p.Wins s u id modules m d t) (hs : s.Sound)
    (hm : m.Legible s id c) (hu : s.Grows u) : p.found c id = .ok (some d.anonymous) := by
  obtain ⟨t₀, ht₀, hquery⟩ := h.asked
  have hct := (hm.grows hu).grows ht₀
  obtain ⟨k, hk, hfound⟩ := query_found (ht₀.sound (hu.sound hs)) hct.serves hct.services hquery
  exact resolution_inj hk ▸ hfound

/-- A module that wins a pass later on gives the descriptor that it gave before. -/
theorem Wins.again {u' : Store} {modules' : List Module} {d d' : ClassDescriptor} {t t' : Store}
    (h : p.Wins s u id modules m d t) (h' : p.Wins s u' id modules' m d' t') (hs : s.Sound)
    (hm : m.Legible s id c) (hu : s.Grows u) (hlater : t.Grows u') : d' = d := by
  obtain ⟨t₀, ht₀, hquery⟩ := h.asked
  obtain ⟨t₀', ht₀', hquery'⟩ := h'.asked
  have hct := (hm.grows hu).grows ht₀
  obtain ⟨v, hv⟩ := query_lasts (ht₀.sound (hu.sound hs)) hct.serves hct.services _ t hquery t₀'
    (hlater.trans ht₀')
  have hsame := (Prod.mk.inj (hquery'.symm.trans hv)).1
  exact resolution_inj (Option.some.inj (Except.ok.inj hsame))

end Pass

namespace ModuleGraph

variable {s u : Store} {id : ClassId} {modules : List Module}

/-- What a resolution comes to, asked of `u`: the answer, and the store after it. -/
inductive Outcome (s u : Store) (id : ClassId) (modules : List Module) : Resolution → Store → Prop
  | found {p : Pass} {m : Module} {d : ClassDescriptor} {t : Store}
      (hnone : ∀ q : Pass, p.rank < q.rank → ∀ k ∈ modules, ¬ q.Offers s id k)
      (hwins : p.Wins s u id modules m d t) : Outcome s u id modules (p.resolution m d) t
  | notFound {t : Store} (hnone : ∀ q : Pass, ∀ k ∈ modules, ¬ q.Offers s id k) :
      Outcome s u id modules .notFound t

theorem resolve_eq (g : ModuleGraph) (id : ClassId) : g.resolve id = (do
    match ← firstAnswer (Pass.declared.query id) (Pass.declared.order g.modules) with
    | some answer => return answer
    | none =>
      match ← firstAnswer (Pass.aliased.query id) (Pass.aliased.order g.modules) with
      | some answer => return answer
      | none =>
        match ← firstAnswer (Pass.forwardDeclared.query id) (Pass.forwardDeclared.order g.modules) with
        | some answer => return answer
        | none => return .notFound) :=
  rfl

/-- The passes of a resolution, one after the other. -/
theorem resolve_outcome (hs : s.Sound) (hmodules : ∀ m ∈ modules, ∃ c, m.Legible s id c)
    (hu : s.Grows u) :
    ∃ r t, ((⟨modules⟩ : ModuleGraph).resolve id).runOn u = (.ok r, t) ∧
      Outcome s u id modules r t := by
  rw [resolve_eq]
  rcases Pass.pass_cases (p := .declared) hs hmodules hu with
    ⟨t₁, hrun₁, ht₁, hnone₁⟩ | ⟨m, d, t, hrun, hwins⟩
  · rw [runOn_bind_ok hrun₁]
    rcases Pass.pass_cases (p := .aliased) hs hmodules (hu.trans ht₁) with
      ⟨t₂, hrun₂, ht₂, hnone₂⟩ | ⟨m, d, t, hrun, hwins⟩
    · dsimp only
      rw [runOn_bind_ok hrun₂]
      have ht₂ := ht₁.trans ht₂
      rcases Pass.pass_cases (p := .forwardDeclared) hs hmodules (hu.trans ht₂) with
        ⟨t₃, hrun₃, -, hnone₃⟩ | ⟨m, d, t, hrun, hwins⟩
      · refine ⟨.notFound, t₃, ?_, .notFound fun q => ?_⟩
        · dsimp only
          rw [runOn_bind_ok hrun₃]
          rfl
        · cases q with
          | declared => exact hnone₁
          | aliased => exact hnone₂
          | forwardDeclared => exact hnone₃
      · refine ⟨_, t, ?_, .found (fun q hq => ?_) (hwins.earlier ht₂)⟩
        · dsimp only
          rw [runOn_bind_ok hrun]
          rfl
        · cases q with
          | declared => exact hnone₁
          | aliased => exact hnone₂
          | forwardDeclared => exact absurd hq (by decide)
    · refine ⟨_, t, ?_, .found (fun q hq => ?_) (hwins.earlier ht₁)⟩
      · dsimp only
        rw [runOn_bind_ok hrun]
        rfl
      · cases q with
        | declared => exact hnone₁
        | aliased | forwardDeclared => exact absurd hq (by decide)
  · refine ⟨_, t, ?_, .found (fun q hq => ?_) hwins⟩
    · rw [runOn_bind_ok hrun]
      rfl
    · cases q <;> exact absurd hq (by decide)

theorem mem_of_wins {p : Pass} {m : Module} {d : ClassDescriptor} {t : Store}
    (h : p.Wins s u id modules m d t) : m ∈ modules := by
  obtain ⟨before, after, horder, -⟩ := h.first
  exact Pass.mem_order.1 (by rw [horder]; simp)

/-- More modules never make a class less known. -/
theorem Outcome.rank_le {u' : Store} {modules' : List Module} {r r' : Resolution} {t t' : Store}
    (h : Outcome s u id modules r t) (h' : Outcome s u' id modules' r' t')
    (hsub : modules ⊆ modules') : r.rank ≤ r'.rank := by
  cases h with
  | notFound hnone => exact Nat.zero_le _
  | @found p m d t hnone hwins =>
    have hm := hsub (mem_of_wins hwins)
    cases h' with
    | notFound hnone' => exact absurd hwins.offers (hnone' p m hm)
    | @found p' m' d' t' hnone' hwins' =>
      rw [Pass.rank_resolution, Pass.rank_resolution]
      exact Nat.not_lt.1 fun hlt => hnone' p hlt m hm hwins.offers

theorem label_of_rank {r r' : Resolution} (h : r.rank = r'.rank) : r.label = r'.label := by
  cases r <;> cases r' <;> simp_all [Resolution.rank, Resolution.label]

/-- Where a single module can answer, it answers, with the same descriptor when the first answer is
there already. -/
theorem Outcome.same (hs : s.Sound) (hmodules : ∀ m ∈ modules, ∃ c, m.Legible s id c) (hu : s.Grows u)
    {u' : Store} (hu' : s.Grows u') {modules' : List Module} {r r' : Resolution} {t t' : Store}
    (h : Outcome s u id modules r t) (h' : Outcome s u' id modules' r' t')
    (hsub : modules' ⊆ modules) (hrank : r'.rank = r.rank)
    (hsingle : ∀ p : Pass, p.rank = r.rank → ∀ m ∈ modules, ∀ k ∈ modules, p.Offers s id m →
      p.Offers s id k → m = k) :
    r'.anonymous = r.anonymous ∧ (t.Grows u' → r' = r) := by
  cases h with
  | notFound hnone =>
    cases h' with
    | notFound hnone' => exact ⟨rfl, fun _ => rfl⟩
    | @found p' m' d' t' hnone' hwins' =>
      exact absurd hwins'.offers (hnone p' m' (hsub (mem_of_wins hwins')))
  | @found p m d t hnone hwins =>
    cases h' with
    | notFound hnone' => cases p <;> cases hrank
    | @found p' m' d' t' hnone' hwins' =>
      rw [Pass.rank_resolution, Pass.rank_resolution] at hrank
      obtain rfl := Pass.rank_inj hrank
      obtain rfl := hsingle p' (Pass.rank_resolution _ _).symm m (mem_of_wins hwins) m'
        (hsub (mem_of_wins hwins')) hwins.offers hwins'.offers
      obtain ⟨c, hc⟩ := hmodules m (mem_of_wins hwins)
      have hfound := (hwins.found hs hc hu).symm.trans (hwins'.found hs hc hu')
      refine ⟨?_, fun ht => by rw [hwins.again hwins' hs hc hu ht]⟩
      rw [Pass.anonymous_resolution, Pass.anonymous_resolution,
        Option.some.inj (Except.ok.inj hfound)]

/-- Which answer is right when `id` is resolved in modules of this order. -/
inductive Answer (s : Store) (id : ClassId) (modules : List Module) : Resolution → Prop
  | declared {before after : List Module} {m : Module} {c : Services} {d : ClassDescriptor}
      (hmodules : modules = before ++ m :: after) (hm : m.Declares s id)
      (hfirst : ∀ k ∈ before, ¬ k.Declares s id) (hc : m.services? s = some c)
      (hd : c.classOf id = .ok (some d.anonymous)) : Answer s id modules (.declared m d)
  | aliased {before after : List Module} {m : Module} {c : Services} {a : AliasFragment}
      {d : ClassDescriptor} (hdeclared : ∀ k ∈ modules, ¬ k.Declares s id)
      (hmodules : modules = before ++ m :: after) (hm : m.Aliases s id)
      (hfirst : ∀ k ∈ before, ¬ k.Aliases s id) (hc : m.services? s = some c)
      (ha : .aliasing a ∈ c.provider.packageFragments id.package)
      (hd : a.meaning c id.relative = .ok (some d.anonymous)) : Answer s id modules (.aliased m d)
  | forwardDeclared {before after : List Module} {m : Module} {c : Services} {e : ExportedFragment}
      {declaration : QualName} {d : ClassDescriptor} (hdeclared : ∀ k ∈ modules, ¬ k.Declares s id)
      (haliased : ∀ k ∈ modules, ¬ k.Aliases s id) (hmodules : modules = before ++ m :: after)
      (hm : m.Exports s id) (hlast : ∀ k ∈ after, ¬ k.Exports s id) (hc : m.services? s = some c)
      (he : .exported e ∈ c.provider.fragments) (hdeclaration : e.declarationFor id = some declaration)
      (hd : d.anonymous = .ofDeclaration 0 declaration) : Answer s id modules (.forwardDeclared m d)
  | notFound (hdeclared : ∀ k ∈ modules, ¬ k.Declares s id) (haliased : ∀ k ∈ modules, ¬ k.Aliases s id)
      (hexported : ∀ k ∈ modules, ¬ k.Exports s id) : Answer s id modules .notFound

/-- What a resolution comes to is the right answer. -/
theorem Outcome.answer (hs : s.Sound) (hmodules : ∀ m ∈ modules, ∃ c, m.Legible s id c)
    (hu : s.Grows u) {r : Resolution} {t : Store} (h : Outcome s u id modules r t) :
    Answer s id modules r := by
  cases h with
  | notFound hnone => exact .notFound (hnone .declared) (hnone .aliased) (hnone .forwardDeclared)
  | @found p m d t hnone hwins =>
    obtain ⟨c, hc⟩ := hmodules m (mem_of_wins hwins)
    obtain ⟨f, hf, hd⟩ := mem_of_findSomeM? (hwins.found hs hc hu)
    obtain ⟨before, after, horder, hbefore⟩ := hwins.first
    match p, f with
    | .declared, .stored f =>
      have hpackage : f.package = id.package := (Provider.mem_packageFragments.1 hf).2
      have hclass := StoredFragment.classOf_of_meaning hd
      rw [hpackage] at hclass
      exact .declared horder hwins.offers hbefore hc.services hclass
    | .aliased, .aliasing a =>
      exact .aliased (hnone .declared (by decide)) horder hwins.offers hbefore hc.services hf hd
    | .forwardDeclared, .exported e =>
      obtain ⟨declaration, hdeclaration, hd⟩ := Option.map_eq_some_iff.1 (Except.ok.inj hd)
      have hmodules : modules = after.reverse ++ m :: before.reverse := by
        have := congrArg List.reverse horder
        simpa [Pass.order] using this
      exact .forwardDeclared (hnone .declared (by decide)) (hnone .aliased (by decide)) hmodules
        hwins.offers (fun k hk => hbefore k (List.mem_reverse.1 hk)) hc.services
        (List.mem_filter.1 hf).1 hdeclaration hd.symm
    | .declared, .aliasing _ | .declared, .exported _ | .aliased, .stored _ | .aliased, .exported _
    | .forwardDeclared, .stored _ | .forwardDeclared, .aliasing _ => cases hd

theorem legible_of_readable {S : Session} (hS : S.Sound) {modules : List Module}
    (hmodules : ∀ m ∈ modules, m ∈ S.modulesInUse) (hread : ∀ m ∈ modules, m.Readable S.store id) :
    ∀ m ∈ modules, ∃ c, m.Legible S.store id c :=
  fun m hm => (hread m hm).legible hS.store (hS.live m (hmodules m hm))

/-- **The best known module answers, in any session and for any order of modules.** Where no look-up
of the class in a fragment of its package fails, resolving it does not fail and gives the right
answer. Another order of the modules makes the class no better and no worse known, at once and after
whatever is asked in between, and a single module that can answer gives the same class in any order:
the same descriptor, once it is made. With one more module the class is at least as well known. -/
theorem resolve_answer {S : Session} (hS : S.Reachable) {g : ModuleGraph}
    (hmodules : ∀ m ∈ g.modules, m ∈ S.modulesInUse)
    (hread : ∀ m ∈ g.modules, m.Readable S.store id) :
    ∃ r t, (g.resolve id).runOn S.store = (.ok r, t) ∧ Answer S.store id g.modules r ∧
      (∀ g' : ModuleGraph, g'.modules.Perm g.modules → ∀ u, S.store.Grows u →
        ∃ r', ((g'.resolve id).runOn u).1 = .ok r' ∧ r'.label = r.label ∧
          ((∀ p : Pass, p.rank = r.rank → ∀ m ∈ g.modules, ∀ k ∈ g.modules,
              p.Offers S.store id m → p.Offers S.store id k → m = k) →
            r'.anonymous = r.anonymous ∧ (t.Grows u → r' = r))) ∧
      (∀ before after k, g.modules = before ++ after → k ∈ S.modulesInUse → k.Readable S.store id →
        ∃ r', (((⟨before ++ k :: after⟩ : ModuleGraph).resolve id).runOn S.store).1 = .ok r' ∧
          r.rank ≤ r'.rank) := by
  have hs := hS.sound.store
  have hlegible := legible_of_readable hS.sound hmodules hread
  obtain ⟨r, t, hrun, houtcome⟩ := resolve_outcome hs hlegible (.refl S.store)
  refine ⟨r, t, hrun, houtcome.answer hs hlegible (.refl _), ?_, ?_⟩
  · intro g' hperm u hu
    have hlegible' : ∀ m ∈ g'.modules, ∃ c, m.Legible S.store id c :=
      fun m hm => hlegible m (hperm.mem_iff.1 hm)
    obtain ⟨r', t', hrun', houtcome'⟩ := resolve_outcome hs hlegible' hu
    have hrank : r'.rank = r.rank :=
      Nat.le_antisymm (houtcome'.rank_le houtcome hperm.subset)
        (houtcome.rank_le houtcome' hperm.symm.subset)
    refine ⟨r', by rw [hrun'], label_of_rank hrank, fun hsingle => ?_⟩
    exact houtcome.same hs hlegible (.refl _) hu houtcome' hperm.subset hrank hsingle
  · intro before after k hsplit hk hreadk
    have hmem {m : Module} (hm : m ∈ before ++ k :: after) : m ∈ g.modules ∨ m = k := by
      rw [hsplit]
      simpa [or_assoc, or_comm (a := m = k)] using hm
    have hlegible' : ∀ m ∈ before ++ k :: after, ∃ c, m.Legible S.store id c :=
      legible_of_readable hS.sound (fun m hm => (hmem hm).elim (hmodules m) (· ▸ hk))
        (fun m hm => (hmem hm).elim (hread m) (· ▸ hreadk))
    obtain ⟨r', t', hrun', houtcome'⟩ := resolve_outcome hs hlegible' (.refl S.store)
    refine ⟨r', by rw [hrun'], houtcome.rank_le houtcome' ?_⟩
    rw [hsplit]
    exact List.append_subset.2 ⟨List.subset_append_left _ _,
      fun m hm => List.mem_append_right _ (List.mem_cons_of_mem k hm)⟩

/-- A library of native bindings, with its classes and the declarations that it exports. -/
def bindings (name : String) (classes exports : List String) : Library :=
  let payload : Payload := ⟨name, .current, classes.map (⟨·, .plain, 0, [], []⟩), [], []⟩
  let manifest := ((Manifest.empty.withPackage name).withInterop true).withExportedForwardDeclarations
    exports
  ((MemoryLibrary.ofPayloads? name name manifest [payload] []).getD ⟨name, .empty, [], []⟩).toLibrary

/-- A session in which an export of a class is loaded before the class. -/
def windows : Session :=
  (Session.load {} (bindings "app" [] ["cnames.structs.SDL_Window"]) {}).load
    (bindings "video" ["SDL_Window"] []) {}

/-- The alias answers, and not the export that was loaded first, whichever module comes first. -/
theorem resolve_answer_windows :
    let id := ClassId.parse "cnames.structs/SDL_Window"
    let g : ModuleGraph := ⟨windows.modulesInUse⟩
    let g' : ModuleGraph := ⟨windows.modulesInUse.reverse⟩
    ∃ r t, (g.resolve id).runOn windows.store = (.ok r, t) ∧ r.label = "aliased" ∧
      Answer windows.store id g.modules r ∧
      ∃ r', ((g'.resolve id).runOn windows.store).1 = .ok r' ∧ r'.label = "aliased" := by
  intro id g g'
  have hreachable : windows.Reachable := .tail (.tail .refl (.loaded _ _)) (.loaded _ _)
  have hread : ∀ m ∈ g.modules, m.Readable windows.store id := by decide +kernel
  have hlabel : ((g.resolve id).runOn windows.store).1.map Resolution.label = .ok "aliased" := by
    decide +kernel
  obtain ⟨r, t, hrun, hanswer, hperm, -⟩ :=
    resolve_answer (g := g) hreachable (fun _ hm => hm) hread
  rw [hrun] at hlabel
  have hlabel := Except.ok.inj hlabel
  obtain ⟨r', hrun', hsame, -⟩ := hperm g' (List.reverse_perm _) windows.store (.refl _)
  exact ⟨r, t, hrun, hlabel, hanswer, r', hrun', hsame.trans hlabel⟩

end ModuleGraph

end SymbolAtlas
