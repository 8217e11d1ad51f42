import SymbolAtlas.Proofs.Symbols.Counting
import SymbolAtlas.Proofs.Symbols.Finding
import SymbolAtlas.Proofs.Symbols.Session

/-!
# The same descriptors over whole runs

Two look-ups of a class give the same descriptor, not only an equal one, by whatever way it is looked
up and whatever was asked in between. An alias shows the very descriptor that the class has in its
own package, and a placeholder is made once.

* `Services.Binds.alias_meaning`, `Services.Binds.found_alias`: an alias finds what the parts of the
  aliased package have;
* `Store.Registered`: annotations refer to the placeholders of the store;
* `Session.Reachable.sameDescriptors`: what is the same in every session.
-/

namespace SymbolAtlas

open Query Relation

/-! ## Aliases -/

theorem AliasFragment.go_eq {c : Services} {name : Name} {targets : List StoredFragment}
    (h : ∀ f ∈ targets, f ∈ c.provider.storedFragments) :
    meaning.go c name targets = targets.findSomeM? (fun f => f.meaning c name) := by
  induction targets with
  | nil => rfl
  | cons f rest ih =>
    rw [meaning.go, List.findSomeM?_cons, ih fun g hg => h g (List.mem_cons_of_mem f hg)]
    cases hrecord : f.hasRecord c name with
    | error e =>
      rw [StoredFragment.meaning, hrecord]
      rfl
    | ok declares =>
      cases declares with
      | false =>
        rw [StoredFragment.meaning, hrecord]
        rfl
      | true =>
        change f.meaning c name = _
        cases hmeans : f.meaning c name with
        | error e => rfl
        | ok v =>
          have hdeclares := StoredFragment.hasRecord_eq_true.1 hrecord
          obtain ⟨d, rfl⟩ := Option.isSome_iff_exists.1
            ((StoredFragment.meaning_isSome (h f List.mem_cons_self) hmeans).2 hdeclares)
          rfl

namespace Services

variable {s t : Store} {c : Services} {id : ClassId} {d : ClassDescriptor}

/-- A class that is read is made from a record, under the id that was asked for. -/
theorem ofRecord_of_classOf (h : c.classOf id = .ok (some d)) :
    ∃ record annotations, d = .ofRecord 0 id record annotations := by
  obtain ⟨found, -, h⟩ := except_bind_eq_ok.1 h
  cases found with
  | none => cases h
  | some found =>
    obtain ⟨d', hclass, hd⟩ := except_map_eq_ok.1 h
    obtain rfl := Option.some.inj hd
    obtain ⟨annotations, -, hd⟩ := except_bind_eq_ok.1 hclass
    exact ⟨found.2, annotations, (Except.ok.inj hd).symm⟩

theorem origin_of_classOf (h : c.classOf id = .ok (some d)) : d.origin = .deserialized := by
  obtain ⟨record, annotations, rfl⟩ := ofRecord_of_classOf h
  rfl

theorem classId_of_classOf (h : c.classOf id = .ok (some d)) : d.classId = id := by
  obtain ⟨record, annotations, rfl⟩ := ofRecord_of_classOf h
  rfl

/-- The stored fragments of a package come before its other fragments. -/
theorem Assembled.packageFragments (h : c.Assembled) (package : QualName) :
    ∃ synthetic, c.provider.packageFragments package =
        (c.provider.storedFragments.filter (·.package == package)).map .stored ++ synthetic ∧
      ∀ f ∈ synthetic, f.stored? = none := by
  obtain ⟨synthetic, hlayers, hsynthetic⟩ := h.layers
  refine ⟨synthetic.filter (·.package == package), ?_, fun f hf => hsynthetic f (List.mem_filter.1 hf).1⟩
  rw [Provider.packageFragments, hlayers, List.filter_append, List.filter_map]
  rfl

def inParts (c : Services) (id : ClassId) : Except LoadError (Option ClassDescriptor) :=
  (c.provider.storedFragments.filter (·.package == id.package)).findSomeM?
    fun f => f.meaning c id.relative

theorem found_of_inParts (h : c.Assembled) (hd : c.inParts id = .ok (some d)) :
    c.found id = .ok (some d) := by
  obtain ⟨synthetic, hfragments, -⟩ := h.packageFragments id.package
  rw [found, hfragments, findSomeM?_append, findSomeM?_map]
  change c.inParts id >>= _ = _
  rw [hd]
  rfl

/-- The one package that aliases show classes of, and that declarations are exported from. -/
structure Binds (c : Services) (package : QualName) : Prop where
  targets : ∀ a, .aliasing a ∈ c.provider.fragments →
    a.targets = c.provider.storedFragments.filter (·.package == package)
  exported : ∀ e, .exported e ∈ c.provider.fragments → e.package = package

theorem Assembled.binds (h : c.Assembled) {a : AliasFragment}
    (ha : .aliasing a ∈ c.provider.fragments) {f : StoredFragment} (hf : f ∈ a.targets) :
    c.Binds f.package := by
  obtain ⟨package, htargets, hexported⟩ := h.interop
  rw [htargets a ha] at hf
  obtain rfl := beq_iff_eq.1 (List.mem_filter.1 hf).2
  exact ⟨htargets, hexported⟩

variable {package : QualName} {name : Name}

theorem Binds.alias_meaning (h : c.Binds package) {a : AliasFragment}
    (ha : .aliasing a ∈ c.provider.fragments) (name : Name) :
    a.meaning c name = c.inParts ⟨package, name⟩ := by
  rw [AliasFragment.meaning, h.targets a ha, AliasFragment.go_eq fun f hf => (List.mem_filter.1 hf).1]
  rfl

/-- An alias finds what the parts of the aliased package have. -/
theorem Binds.found_alias (h : c.Binds package) {a : AliasFragment}
    (ha : .aliasing a ∈ c.provider.fragments) (hne : package ≠ a.space.package)
    (hnone : ∀ f ∈ c.provider.storedFragments, f.package ≠ a.space.package) (name : Name) :
    c.found ⟨a.space.package, name⟩ = c.inParts ⟨package, name⟩ := by
  have hmem : .aliasing a ∈ c.provider.packageFragments a.space.package :=
    Provider.mem_packageFragments.2 ⟨ha, rfl⟩
  apply findSomeM?_const (List.ne_nil_of_mem hmem)
  intro g hg
  obtain ⟨hg, hpackage⟩ := Provider.mem_packageFragments.1 hg
  cases g with
  | stored f => exact absurd hpackage (hnone f (Provider.stored_mem.1 hg))
  | aliasing b => exact h.alias_meaning hg name
  | exported e => exact absurd ((h.exported e hg).symm.trans hpackage) hne

/-- What is found in the aliased package is what its parts have, unless it is exported. -/
theorem Binds.inParts_of_found (h : c.Binds package) (hassembled : c.Assembled)
    (hd : c.found ⟨package, name⟩ = .ok (some d)) (horigin : d.origin = .deserialized) :
    c.inParts ⟨package, name⟩ = .ok (some d) := by
  obtain ⟨synthetic, hfragments, hsynthetic⟩ := hassembled.packageFragments package
  have hmem {g : Fragment} (hg : g ∈ synthetic) : g ∈ c.provider.fragments := by
    have hg : g ∈ c.provider.packageFragments package := by
      rw [hfragments]
      exact List.mem_append_right _ hg
    exact (Provider.mem_packageFragments.1 hg).1
  rw [found, hfragments, findSomeM?_append, findSomeM?_map] at hd
  obtain ⟨v, hv, hd⟩ := except_bind_eq_ok.1 hd
  change c.inParts ⟨package, name⟩ = .ok v at hv
  cases v with
  | some d' => rw [hv, ← hd]; rfl
  | none =>
    obtain ⟨g, hg, hd⟩ := mem_of_findSomeM? hd
    cases g with
    | stored f => cases hsynthetic _ hg
    | aliasing b =>
      change b.meaning c name = _ at hd
      rw [h.alias_meaning (hmem hg), hv] at hd
      cases hd
    | exported e =>
      obtain ⟨declaration, -, rfl⟩ := Option.map_eq_some_iff.1 (Except.ok.inj hd)
      cases horigin

theorem classOf_of_inParts (h : c.inParts id = .ok (some d)) : c.classOf id = .ok (some d) := by
  obtain ⟨f, hf, hmeans⟩ := mem_of_findSomeM? h
  have hpackage : f.package = id.package := beq_iff_eq.1 (List.mem_filter.1 hf).2
  have hclass := StoredFragment.classOf_of_meaning hmeans
  rwa [hpackage] at hclass

theorem origin_of_inParts (h : c.inParts id = .ok (some d)) : d.origin = .deserialized :=
  origin_of_classOf (classOf_of_inParts h)

/-- A class that is found in the aliased package, or through an alias, is remembered as a class of
the aliased package, unless it is exported. -/
theorem Binds.remembers (h : c.Binds package) (hs : s.Sound) (hc : s.Serves c)
    (hpackage : ∀ f ∈ c.provider.storedFragments, f.package = id.package → id.package = package)
    (horigin : d.origin = .deserialized) (hrun : (c.findClass id).runOn s = (.ok (some d), t)) :
    t.Remembers c ⟨package, id.relative⟩ (some d) := by
  rw [runOn_findClass hc] at hrun
  obtain ⟨before, g, after, u, hitems, -, hmeans, hu, hg⟩ :=
    firstAnswer_some (means_contributed hs hc id.package id.relative) hrun
  have hmem : g ∈ c.provider.packageFragments id.package := by rw [hitems]; simp
  obtain ⟨hmem, hgpackage⟩ := Provider.mem_packageFragments.1 hmem
  have hus := hu.sound hs
  have huc := hu.knows_iff.2 hc.knows
  cases g with
  | stored f =>
    have hf := Provider.stored_mem.1 hmem
    have hremembers := (f.contributed_some hus ⟨huc, hf⟩ hg).2
    rwa [show f.package = package from hgpackage.trans (hpackage f hf hgpackage)] at hremembers
  | aliasing a =>
    have htargets := h.targets a hmem
    obtain ⟨f, hf, hremembers⟩ := AliasFragment.go_some hus
      (fun f hf => ⟨huc, hus.targets c huc a hmem f hf⟩) hg
    rw [htargets] at hf
    rwa [beq_iff_eq.1 (List.mem_filter.1 hf).2] at hremembers
  | exported e =>
    obtain ⟨declaration, -, hd⟩ := Option.map_eq_some_iff.1 (Except.ok.inj hmeans)
    have hanonymous : d.anonymous.origin = .forwardDeclaration := hd ▸ rfl
    cases horigin.symm.trans hanonymous

end Services

/-! ## Annotations -/

namespace Store

variable {s t : Store} {c : Services}

/-- The annotations of classes refer to the placeholders that the store has for missing classes. -/
def Registered (s : Store) : Prop :=
  ∀ c, s.Knows c → ∀ id d, s.Remembers c id (some d) → ∀ a ∈ d.annotations, s.Registers c a

/-- A class that is remembered anew brings its annotations with it. -/
theorem Registered.cell (h : s.Registered) (hs : s.Sound) (hc : s.Knows c) {id : ClassId}
    {cell : Option (Option ClassDescriptor)}
    (hcell : ∀ d, cell = some (some d) → ∀ a ∈ d.annotations, s.Registers c a) :
    (c.setCell id cell s).Registered := by
  intro e he id' d hremembers
  have he : s.Knows e := he
  rw [Remembers, Services.setCell, Table.get?_set] at hremembers
  split at hremembers
  · rename_i hkey
    obtain rfl := hs.services e he c hc (Prod.mk.inj hkey).1
    exact hcell d (Option.some.inj hremembers)
  · exact h e he id' d hremembers

theorem Registered.change (h : s.Registered) (hs : s.Sound) (hchange : s.Change t) :
    t.Registered := by
  have hgrows := hchange.grows
  cases hchange with
  | refused | populated | missed | placed =>
    intro c hc id d hd a ha
    exact hgrows.registers (h c (hgrows.knows_iff.1 hc) id d hd a ha)
  | opened hc => exact h.cell hs hc nofun
  | absent hc => exact h.cell hs hc nofun
  | made hc _ _ hregisters =>
    refine h.cell hs hc fun d hd => ?_
    obtain rfl := Option.some.inj (Option.some.inj hd)
    exact hregisters

theorem Registered.step (h : s.Registered) (hs : s.Sound) (hstep : s.Step t) : t.Registered := by
  cases hstep with
  | changed hchange => exact h.change hs hchange
  | numbered hnumbers =>
    obtain ⟨n, -, rfl⟩ := hnumbers
    exact h
  | loaded hloads =>
    intro c hc id d hd a ha m hm
    rw [Remembers, hloads.classes] at hd
    rw [hloads.missing]
    rcases hloads.knows_cases hc with rfl | hc
    · exact absurd (hs.classes_lt _ id _ hd) (Nat.not_lt.2 hloads.services_new.1)
    · exact h c hc id d hd a ha m hm
  | shared _ hc => exact fun d hd => h d (knows_of_shared hc hd)
  | ended => exact h

theorem Reachable.registered (h : s.Reachable) : s.Registered :=
  h.induct (fun _ ⟨_, h⟩ => by cases h) fun _ _ hs hstep ih => ih.step hs.sound hstep

theorem madeBy_eq_some {e : (Identity × ClassId) × Option (Option ClassDescriptor)} {id : ClassId}
    (h : madeBy c e = some id) : ∃ d, e = ((c.identity, id), some (some d)) := by
  obtain ⟨⟨i, id'⟩, _ | _ | d⟩ := e
  · cases h
  · cases h
  · by_cases hi : i = c.identity
    · rw [madeBy, if_pos hi] at h
      exact ⟨d, by rw [hi, Option.some.inj h]⟩
    · rw [madeBy, if_neg hi] at h
      cases h

theorem mem_classIds (h : s.Tidy) {id : ClassId} :
    id ∈ s.classIds c ↔ ∃ d, s.Remembers c id (some d) := by
  rw [classIds, List.mem_filterMap]
  constructor
  · rintro ⟨e, he, hid⟩
    obtain ⟨d, rfl⟩ := madeBy_eq_some hid
    exact ⟨d, h.classes.get?_of_mem he⟩
  · rintro ⟨d, hd⟩
    exact ⟨_, Table.mem_entries_of_get? hd, if_pos rfl⟩

theorem nodup_classIds (h : s.Tidy) (c : Services) : (s.classIds c).Nodup := by
  rw [classIds, List.Nodup, List.pairwise_filterMap]
  refine (List.pairwise_map.1 h.classes).imp fun {e e'} hne id hid id' hid' heq => hne ?_
  obtain ⟨d, rfl⟩ := madeBy_eq_some hid
  obtain ⟨d', rfl⟩ := madeBy_eq_some hid'
  rw [heq]

end Store

/-! ## In sessions -/

namespace Module

/-- The ways to look for a class of a module. -/
inductive LookUp
  | finding
  | resolving

def lookUp (m : Module) (id : ClassId) : LookUp → Query (Option ClassDescriptor)
  | .finding => m.findClass id
  | .resolving => some <$> m.resolveClass id

variable {s t : Store} {c : Services} {m : Module} {id : ClassId} {d : ClassDescriptor}

theorem runOn_findClass (hm : m.services? s = some c) (id : ClassId) :
    (m.findClass id).runOn s = (c.findClass id).runOn s := by
  rw [findClass, runOn_bind_ok (runOn_services hm)]

theorem runOn_resolveClass (hm : m.services? s = some c) (id : ClassId) :
    (m.resolveClass id).runOn s = (c.resolveClass id).runOn s := by
  rw [resolveClass, runOn_bind_ok (runOn_services hm)]

theorem lookUp_of_found (hm : m.services? s = some c)
    (h : (c.findClass id).runOn s = (.ok (some d), t)) (k : LookUp) :
    (m.lookUp id k).runOn s = (.ok (some d), t) := by
  cases k with
  | finding => rw [lookUp, runOn_findClass hm, h]
  | resolving =>
    rw [lookUp, map_eq_pure_bind, runOn_bind, runOn_resolveClass hm,
      Services.runOn_resolveClass_of_found h]
    rfl

/-- What a look-up gives was found, or stands for a class that is missing. -/
theorem lookUp_some (hs : s.Sound) (hm : m.services? s = some c) (hc : s.Serves c) {k : LookUp}
    (h : (m.lookUp id k).runOn s = (.ok (some d), t)) :
    (c.findClass id).runOn s = (.ok (some d), t) ∨
      k = .resolving ∧ c.found id = .ok none ∧
        ∃ k, d = k.descriptor ∧ t.missing.get? (c.identity, id, 0) = some k := by
  cases k with
  | finding => exact .inl (by rwa [lookUp, runOn_findClass hm] at h)
  | resolving =>
    rw [lookUp, map_eq_pure_bind] at h
    obtain ⟨d', t', hresolve, hpure⟩ := runOn_bind_eq_ok h
    obtain ⟨hd, rfl⟩ := Prod.mk.inj hpure
    obtain rfl := Option.some.inj (Except.ok.inj hd)
    rw [runOn_resolveClass hm] at hresolve
    exact (Services.resolveClass_ok hs hc hresolve).imp_right fun h => ⟨rfl, h⟩

def meaning (c : Services) (id : ClassId) : LookUp → Except LoadError (Option ClassDescriptor)
  | .finding => c.found id
  | .resolving => some <$> c.resolved id

theorem lookUp_answers (hs : s.Sound) (hm : m.services? s = some c) (hc : s.Serves c) (id : ClassId)
    (k : LookUp) : Answers Store.Grows (m.lookUp id k) s (Option.map ClassDescriptor.anonymous)
      (meaning c id k) := by
  cases k with
  | finding => exact .bindOk (runOn_services hm) (Services.findClass_answers hs hc id)
  | resolving =>
    have hresolve : Answers Store.Grows (m.resolveClass id) s ClassDescriptor.anonymous
      (c.resolved id) := .bindOk (runOn_services hm) (Services.resolveClass_answers hs hc id)
    exact hresolve.map fun _ => rfl

/-- Two look-ups of a class give the same descriptor, the second at any later time. -/
theorem lookUp_again (hs : s.Sound) (hm : m.services? s = some c) (hc : s.Serves c) {k : LookUp}
    (h : (m.lookUp id k).runOn s = (.ok (some d), t)) {u : Store} (hu : t.Grows u) :
    ((m.lookUp id k).runOn u).1 = .ok (some d) ∧
      ∀ k' d', ((m.lookUp id k').runOn u).1 = .ok (some d') → d' = d := by
  have hgrows : s.Grows u := ((lookUp_answers hs hm hc id k).keeps.leads h).trans hu
  have hm' : m.services? u = some c := (hgrows.services? m).trans hm
  rcases lookUp_some hs hm hc h with hfind | ⟨rfl, hfound, k, rfl, hk⟩
  · obtain ⟨v, hv⟩ := Services.findClass_lasts hs hc id d t hfind u hu
    have hall := lookUp_of_found hm' hv
    refine ⟨by rw [hall k], fun k' d' hd' => ?_⟩
    rw [hall k'] at hd'
    exact (Option.some.inj (Except.ok.inj hd')).symm
  · obtain ⟨v, hv⟩ := Services.runOn_resolveClass_of_missing (hgrows.sound hs) (hgrows.serves hc)
      hfound (hu.missing _ k hk)
    have hresolving : (m.lookUp id .resolving).runOn u = (.ok (some k.descriptor), v) := by
      rw [lookUp, map_eq_pure_bind, runOn_bind, runOn_resolveClass hm', hv]
      rfl
    refine ⟨by rw [hresolving], fun k' d' hd' => ?_⟩
    cases k' with
    | finding =>
      have hvalue := (lookUp_answers (hgrows.sound hs) hm' (hgrows.serves hc) id .finding).value
      rw [hd', meaning, hfound] at hvalue
      cases hvalue
    | resolving =>
      rw [hresolving] at hd'
      exact (Option.some.inj (Except.ok.inj hd')).symm

/-- A class that is remembered as a class of the aliased package is what look-ups give. -/
theorem lookUp_remembered {package : QualName} (id : ClassId) (hs : s.Sound) (hm : m.services? s = some c)
    (hc : s.Serves c) (hbinds : c.Binds package)
    (hpackage : ∀ f ∈ c.provider.storedFragments, f.package = id.package → id.package = package)
    (hfound : c.found id = .ok (some d.anonymous)) (horigin : d.origin = .deserialized)
    (hremembers : s.Remembers c ⟨package, id.relative⟩ (some d)) (k : LookUp) :
    ((m.lookUp id k).runOn s).1 = .ok (some d) := by
  have hanswers := Services.findClass_answers hs hc id
  rw [hfound] at hanswers
  obtain ⟨found, t, hrun, hanonymous, ht⟩ := hanswers.runOn_eq
  obtain ⟨d', rfl, hd'⟩ := Option.map_eq_some_iff.1 hanonymous
  have horigin' : d'.origin = .deserialized := (congrArg ClassDescriptor.origin hd').trans horigin
  have hremembers' := hbinds.remembers hs hc hpackage horigin' hrun
  have hsame := hremembers'.symm.trans (ht.classes _ _ _ hremembers)
  obtain rfl := Option.some.inj (Option.some.inj (Option.some.inj hsame))
  rw [lookUp_of_found hm hrun k]

section

variable {a : AliasFragment} {f : StoredFragment} {name : Name} {k : LookUp} {u : Store}

/-- A class that was seen through an alias is the same descriptor in its own package. -/
theorem lookUp_aliased (hs : s.Sound) (hm : m.services? s = some c) (hc : s.Serves c)
    (hassembled : c.Assembled) (ha : .aliasing a ∈ c.provider.fragments)
    (hnone : ∀ f ∈ c.provider.storedFragments, f.package ≠ a.space.package) (hf : f ∈ a.targets)
    (h : (m.lookUp ⟨a.space.package, name⟩ k).runOn s = (.ok (some d), t)) (horigin : d.origin ≠ .notFound)
    (hu : t.Grows u) (k' : LookUp) : ((m.lookUp ⟨f.package, name⟩ k').runOn u).1 = .ok (some d) := by
  have hbinds := hassembled.binds ha hf
  have hgrows : s.Grows u := ((lookUp_answers hs hm hc _ k).keeps.leads h).trans hu
  have hfind : (c.findClass ⟨a.space.package, name⟩).runOn s = (.ok (some d), t) := by
    rcases lookUp_some hs hm hc h with hfind | ⟨-, -, k, rfl, -⟩
    · exact hfind
    · exact absurd rfl horigin
  have hfound := ((Services.findClass_answers hs hc _).value_of_ok hfind).1
  have hparts : c.inParts ⟨f.package, name⟩ = .ok (some d.anonymous) := by
    rw [← hbinds.found_alias ha (hnone f (hassembled.targets ha hf)) hnone name, hfound]
    rfl
  have horigin' : d.origin = .deserialized := Services.origin_of_inParts (d := d.anonymous) hparts
  have hremembers := hbinds.remembers hs hc (fun g hg heq => absurd heq (hnone g hg)) horigin' hfind
  exact lookUp_remembered _ (hgrows.sound hs) ((hgrows.services? m).trans hm)
    (hgrows.serves hc) hbinds (fun _ _ _ => rfl) (Services.found_of_inParts hassembled hparts) horigin'
    (hu.classes _ _ _ hremembers) k'

/-- A class of the aliased package is the same descriptor through an alias. -/
theorem lookUp_direct (hs : s.Sound) (hm : m.services? s = some c) (hc : s.Serves c)
    (hassembled : c.Assembled) (ha : .aliasing a ∈ c.provider.fragments)
    (hnone : ∀ f ∈ c.provider.storedFragments, f.package ≠ a.space.package) (hf : f ∈ a.targets)
    (h : (m.lookUp ⟨f.package, name⟩ k).runOn s = (.ok (some d), t)) (horigin : d.origin = .deserialized)
    (hu : t.Grows u) (k' : LookUp) :
    ((m.lookUp ⟨a.space.package, name⟩ k').runOn u).1 = .ok (some d) := by
  have hbinds := hassembled.binds ha hf
  have hgrows : s.Grows u := ((lookUp_answers hs hm hc _ k).keeps.leads h).trans hu
  have hfind : (c.findClass ⟨f.package, name⟩).runOn s = (.ok (some d), t) := by
    rcases lookUp_some hs hm hc h with hfind | ⟨-, -, k, rfl, -⟩
    · exact hfind
    · cases horigin
  have hfound := ((Services.findClass_answers hs hc _).value_of_ok hfind).1
  have hparts := hbinds.inParts_of_found hassembled hfound horigin
  have hremembers := hbinds.remembers hs hc (fun _ _ _ => rfl) horigin hfind
  refine lookUp_remembered ⟨a.space.package, name⟩ (hgrows.sound hs)
    ((hgrows.services? m).trans hm) (hgrows.serves hc) hbinds
    (fun g hg heq => absurd heq (hnone g hg)) ?_ horigin (hu.classes _ _ _ hremembers) k'
  rw [hbinds.found_alias ha (hnone f (hassembled.targets ha hf)) hnone name, hparts]

end

end Module

namespace Session

variable {S : Session} {m : Module} {c : Services}

/-- What is the same, whatever is asked, in a session where the services of a module are `c`. -/
structure SameDescriptors (S : Session) (m : Module) (c : Services) : Prop where
  /-- A class that was looked up is the same descriptor in every later look-up. -/
  again : ∀ id k d t, (m.lookUp id k).runOn S.store = (.ok (some d), t) → ∀ u, t.Asked u →
    ((m.lookUp id k).runOn u).1 = .ok (some d) ∧
      ∀ k' d', ((m.lookUp id k').runOn u).1 = .ok (some d') → d' = d
  /-- A class that was seen through an alias is the same descriptor in its own package, if no part
  lies in the reserved namespace. -/
  aliased : ∀ a, .aliasing a ∈ c.provider.fragments →
    (∀ f ∈ c.provider.storedFragments, f.package ≠ a.space.package) →
    ∀ f ∈ a.targets, ∀ name k d t,
      (m.lookUp ⟨a.space.package, name⟩ k).runOn S.store = (.ok (some d), t) → d.origin ≠ .notFound →
      ∀ u, t.Asked u → ∀ k', ((m.lookUp ⟨f.package, name⟩ k').runOn u).1 = .ok (some d)
  /-- A class of the aliased package is the same descriptor through the alias. -/
  direct : ∀ a, .aliasing a ∈ c.provider.fragments →
    (∀ f ∈ c.provider.storedFragments, f.package ≠ a.space.package) →
    ∀ f ∈ a.targets, ∀ name k d t,
      (m.lookUp ⟨f.package, name⟩ k).runOn S.store = (.ok (some d), t) → d.origin = .deserialized →
      ∀ u, t.Asked u → ∀ k', ((m.lookUp ⟨a.space.package, name⟩ k').runOn u).1 = .ok (some d)
  /-- The placeholder for a missing class is made once. -/
  missing : ∀ id n k t, (c.missingClass id n).runOn S.store = (.ok k, t) → ∀ u, t.Asked u →
    (c.missingClass id n).runOn u = (.ok k, u)
  /-- Annotations refer to these placeholders. -/
  annotations : ∀ id d, S.store.Remembers c id (some d) → ∀ a ∈ d.annotations, S.store.Registers c a
  /-- The descriptor for an exported declaration is made once. -/
  placeholder : ∀ e, .exported e ∈ c.provider.fragments → ∀ declaration d t,
    (e.placeholder declaration).runOn S.store = (.ok d, t) → ∀ u, t.Asked u →
      (e.placeholder declaration).runOn u = (.ok d, u)
  /-- Counters of its own say how many classes the module has. -/
  classesRead : S.store.Owns c → ∃ ids : List ClassId, ids.Nodup ∧
    (∀ id, id ∈ ids ↔ ∃ d, S.store.Remembers c id (some d)) ∧
    (S.store.countersOf c.counters).classesRead = ids.length
  /-- They say how many placeholders for missing classes it has. -/
  missingClasses : S.store.Owns c →
    (S.store.countersOf c.counters).missingClasses = S.store.missingCount c

/-- **The same descriptors over whole runs.** -/
theorem Reachable.sameDescriptors (h : S.Reachable) (hm : m ∈ S.modulesInUse)
    (hc : m.services? S.store = some c) : S.SameDescriptors m c := by
  have hs := h.sound.store
  have hserves : S.store.Serves c := ⟨Module.knows_of_services? hc, h.sound.live m hm c hc⟩
  have htidy := h.store.tidy
  have hassembled := htidy.assembled c hserves.knows
  exact
    { again := fun id k d t hrun u hu =>
        have ht := (Module.lookUp_answers hs hc hserves id k).keeps.leads hrun
        Module.lookUp_again hs hc hserves hrun (hu.changes (ht.sound hs)).grows
      aliased := fun a ha hnone f hf name k d t hrun horigin u hu =>
        have ht := (Module.lookUp_answers hs hc hserves _ k).keeps.leads hrun
        Module.lookUp_aliased hs hc hserves hassembled ha hnone hf hrun horigin
          (hu.changes (ht.sound hs)).grows
      direct := fun a ha hnone f hf name k d t hrun horigin u hu =>
        have ht := (Module.lookUp_answers hs hc hserves _ k).keeps.leads hrun
        Module.lookUp_direct hs hc hserves hassembled ha hnone hf hrun horigin
          (hu.changes (ht.sound hs)).grows
      missing := by
        intro id n k t hrun u hu
        have ht := ((Services.missingClass_keeps hserves.knows id n).leads hrun).grows
        have hk := (Services.registered_of_missingClass hs hrun).2.2
        exact Services.runOn_missingClass_of_registered
          ((hu.changes (ht.sound hs)).grows.missing _ k hk)
      annotations := h.store.registered c hserves.knows
      placeholder := by
        intro e _ declaration d t hrun u hu
        have ht := ((e.placeholder_keeps declaration).leads hrun).grows
        have hd := ExportedFragment.placeholder_kept hrun
        exact ExportedFragment.runOn_placeholder_of_placed
          ((hu.changes (ht.sound hs)).grows.placeholders _ d hd)
      classesRead := fun howns => ⟨S.store.classIds c, Store.nodup_classIds htidy c,
        fun id => Store.mem_classIds htidy, h.store.counted.classes c howns⟩
      missingClasses := h.store.counted.missing c }

/-- A library of native bindings with a class, and a class that it exports a declaration of. -/
def video : Library :=
  let payload : Payload := ⟨"video", .current, [⟨"Window", .plain, 0, [], []⟩], [], []⟩
  let manifest := ((Manifest.empty.withPackage "video").withInterop true).withExportedForwardDeclarations
    ["cnames.structs.Surface"]
  ((MemoryLibrary.ofPayloads? "video" "video" manifest [payload] []).getD
    ⟨"video", .empty, [], []⟩).toLibrary

/-- The fragment shows the package under the reserved name. -/
def shows (space : ForwardNamespace) (package : QualName) : Fragment → Bool
  | .aliasing a => a.space == space && a.targets.any (·.package == package)
  | _ => false

/-- The class is found through its alias and then in its own package, as one descriptor. -/
theorem sameDescriptors_video :
    let S := load {} video {}
    ∃ m c, m ∈ S.modulesInUse ∧ m.services? S.store = some c ∧ S.SameDescriptors m c ∧
      ∃ d t, (m.lookUp ⟨ForwardNamespace.cStructs.package, ⟨"Window"⟩⟩ .finding).runOn S.store =
          (.ok (some d), t) ∧
        ((m.lookUp ⟨.ofText "video", ⟨"Window"⟩⟩ .resolving).runOn t).1 = .ok (some d) := by
  intro S
  have hreachable : S.Reachable := .single (.loaded _ _)
  have hfound : (S.module? 0).any (fun m =>
      ((m.lookUp ⟨ForwardNamespace.cStructs.package, ⟨"Window"⟩⟩ .finding).runOn S.store).1.toOption.any
        (·.any (·.origin != .notFound))) = true := by decide +kernel
  have hshape : (S.module? 0).all (fun m => (m.services? S.store).any fun c =>
      (c.provider.storedFragments.all (·.package != ForwardNamespace.cStructs.package)) &&
        c.provider.fragments.any (shows .cStructs (.ofText "video"))) = true := by decide +kernel
  cases hslot : S.module? 0 with
  | none =>
    rw [hslot] at hfound
    cases hfound
  | some m =>
    rw [hslot] at hfound hshape
    rw [Option.any_some] at hfound
    change (m.services? S.store).any _ = true at hshape
    have hm := mem_of_module? hslot
    cases hc : m.services? S.store with
    | none =>
      rw [hc] at hshape
      cases hshape
    | some c =>
      rw [hc] at hshape
      obtain ⟨hnone, hshape⟩ := (Bool.and_eq_true _ _).mp hshape
      obtain ⟨g, hg, hshape⟩ := List.any_eq_true.1 hshape
      cases g with
      | stored f => cases hshape
      | exported e => cases hshape
      | aliasing a =>
        obtain ⟨hspace, htarget⟩ := (Bool.and_eq_true _ _).mp hshape
        obtain ⟨f, hf, hpackage⟩ := List.any_eq_true.1 htarget
        have hsame := hreachable.sameDescriptors hm hc
        rcases hrun : (m.lookUp ⟨ForwardNamespace.cStructs.package, ⟨"Window"⟩⟩ .finding).runOn S.store
          with ⟨e | _ | d, t⟩
        · rw [hrun] at hfound
          cases hfound
        · rw [hrun] at hfound
          cases hfound
        · rw [hrun] at hfound
          refine ⟨m, c, hm, hc, hsame, d, t, hrun, ?_⟩
          have hfound : (d.origin != .notFound) = true := hfound
          have hspace : a.space = .cStructs := beq_iff_eq.1 hspace
          have hpackage : f.package = .ofText "video" := beq_iff_eq.1 hpackage
          rw [← hpackage]
          rw [← hspace] at hrun
          refine hsame.aliased a hg (fun g hg => ?_) f hf _ _ d t hrun (bne_iff_ne.1 hfound) t .refl _
          rw [hspace]
          simpa using List.all_eq_true.1 hnone g hg

end Session

end SymbolAtlas
