import SymbolAtlas.Proofs.Symbols.Faithful
import SymbolAtlas.Proofs.Symbols.Transparency

/-!
# Names that are listed

Each kind of fragment lists names in its own way: a part the classes of its payload, an alias what its
targets declare, and exported declarations their last segments. Where all parts can be read, each of
them lists exactly the names under which it offers classes.

* `StoredFragment.mem_names`: what several parts list;
* `Fragment.Lists`: the fragment lists the names under which it means something;
* `Services.Reads.exists_lists`: every fragment does, whatever its kind;
* `Services.Reads.found_isSome`: a class is found exactly when a fragment of its package lists its name.
-/

namespace SymbolAtlas

open Query

variable {c : Services} {name : Name}

/-- The fragment means something under every name, and it is a class for the names that it lists. -/
structure Fragment.Lists (f : Fragment) (c : Services) (names : List Name) : Prop where
  listed : f.namesOf c = .ok names
  offered : ∀ name, ∃ v, f.meaning c name = .ok v ∧ (name ∈ names ↔ v.isSome)

/-! ## One kind of fragment after the other -/

theorem Payload.mem_classNames {p : Payload} : name ∈ p.classNames ↔ (p.class? name).isSome := by
  obtain ⟨text⟩ := name
  simp [classNames, class?]

/-- A part that is read declares the classes that its payload lists. -/
theorem StoredFragment.declares_iff {f : StoredFragment} {p : Payload} (h : f.reading c = .ok p) :
    f.Declares c name ↔ name ∈ p.classNames := by
  have hrecord : f.recordOf c name = .ok (p.class? name) := by
    rw [recordOf, h]
    rfl
  rw [Payload.mem_classNames, Option.isSome_iff_exists, Declares, hrecord]
  exact exists_congr fun record => ⟨Except.ok.inj, congrArg Except.ok⟩

theorem StoredFragment.names_eq_ok {f : StoredFragment} {names : List Name} :
    (do return (← f.reading c).classNames : Except LoadError (List Name)) = .ok names ↔
      ∃ p, f.reading c = .ok p ∧ p.classNames = names :=
  except_map_eq_ok

/-- The names of several parts are those that one of them has. -/
theorem StoredFragment.mem_names {parts : List StoredFragment} {lists : List (List Name)}
    (h : parts.mapM (fun f => return (← f.reading c).classNames) = .ok lists) :
    name ∈ lists.flatten ↔ ∃ f ∈ parts, ∃ p, f.reading c = .ok p ∧ name ∈ p.classNames := by
  rw [List.mem_flatten]
  constructor
  · rintro ⟨list, hlist, hname⟩
    obtain ⟨f, hf, hlist⟩ := (mem_mapM h).1 hlist
    obtain ⟨p, hp, rfl⟩ := names_eq_ok.1 hlist
    exact ⟨f, hf, p, hp, hname⟩
  · rintro ⟨f, hf, p, hp, hname⟩
    exact ⟨p.classNames, (mem_mapM h).2 ⟨f, hf, names_eq_ok.2 ⟨p, hp, rfl⟩⟩, hname⟩

theorem ExportedFragment.mem_classNames {e : ExportedFragment} :
    name ∈ e.classNames ↔ (e.meaning name).isSome := by
  simp [classNames, meaning, List.mem_eraseDups]

/-- Exported declarations need no reading. -/
theorem ExportedFragment.lists (e : ExportedFragment) : (Fragment.exported e).Lists c e.classNames :=
  ⟨rfl, fun _ => ⟨_, rfl, mem_classNames⟩⟩

namespace Services.Reads

variable {parts : List (QualName × Nat)} {payloads : List Payload} {f : StoredFragment}

theorem exists_reading (h : c.Reads parts payloads) (hf : f ∈ c.provider.storedFragments) :
    ∃ p, f.reading c = .ok p := by
  obtain ⟨hlength, hreads⟩ := List.forall₂_iff_get.1 h
  obtain ⟨i, rfl⟩ := List.get_of_mem hf
  exact ⟨_, (hreads i i.isLt (hlength ▸ i.isLt)).2⟩

/-- A part that declares a class goes on to the class of the module, and finds it there. -/
theorem stored_meaning (h : c.Reads parts payloads) (hc : c.Assembled)
    (hf : f ∈ c.provider.storedFragments) (name : Name) :
    ∃ v, f.meaning c name = .ok v ∧ (v.isSome ↔ f.Declares c name) := by
  obtain ⟨p, hp⟩ := h.exists_reading hf
  obtain ⟨v, hv⟩ := h.exists_classOf hc ⟨f.package, name⟩
  have hmeaning : f.meaning c name = if (p.class? name).isSome then .ok v else .ok none := by
    rw [StoredFragment.meaning, StoredFragment.hasRecord, StoredFragment.recordOf, hp, ← hv]
    rfl
  have hok : ∃ w, f.meaning c name = .ok w := by
    rw [hmeaning]
    split
    · exact ⟨v, rfl⟩
    · exact ⟨none, rfl⟩
  obtain ⟨w, hw⟩ := hok
  exact ⟨w, hw, StoredFragment.meaning_isSome hf hw⟩

theorem stored_lists (h : c.Reads parts payloads) (hc : c.Assembled)
    (hf : f ∈ c.provider.storedFragments) : ∃ names, (Fragment.stored f).Lists c names := by
  obtain ⟨p, hp⟩ := h.exists_reading hf
  refine ⟨p.classNames, ?_, fun name => ?_⟩
  · rw [Fragment.namesOf, hp]
    rfl
  · obtain ⟨v, hv, hiff⟩ := h.stored_meaning hc hf name
    exact ⟨v, hv, (hiff.trans (StoredFragment.declares_iff hp)).symm⟩

/-- The names of several parts are those that one of them declares. -/
theorem exists_classNames (h : c.Reads parts payloads) {targets : List StoredFragment}
    (hf : ∀ f ∈ targets, f ∈ c.provider.storedFragments) :
    ∃ lists : List (List Name), targets.mapM (fun f => return (← f.reading c).classNames) = .ok lists ∧
      ∀ name, name ∈ lists.flatten ↔ ∃ f ∈ targets, f.Declares c name := by
  have hnames : ∀ f ∈ targets, ∃ names,
      (do return (← f.reading c).classNames : Except LoadError (List Name)) = .ok names ∧ True := by
    intro f hm
    obtain ⟨p, hp⟩ := h.exists_reading (hf f hm)
    exact ⟨p.classNames, StoredFragment.names_eq_ok.2 ⟨p, hp, rfl⟩, trivial⟩
  obtain ⟨lists, hlists, -⟩ := exists_mapM hnames
  refine ⟨lists, hlists, fun name => (StoredFragment.mem_names hlists).trans ?_⟩
  refine exists_congr fun f => and_congr_right fun hm => ?_
  obtain ⟨p, hp⟩ := h.exists_reading (hf f hm)
  simp [hp, StoredFragment.declares_iff hp]

/-- An alias lists what its targets declare, and looks through them for a name. -/
theorem aliasing_lists (h : c.Reads parts payloads) (hc : c.Assembled) {a : AliasFragment}
    (ha : ∀ f ∈ a.targets, f ∈ c.provider.storedFragments) :
    ∃ names, (Fragment.aliasing a).Lists c names := by
  obtain ⟨lists, hlists, hdeclared⟩ := h.exists_classNames ha
  refine ⟨lists.flatten.eraseDups, ?_, fun name => ?_⟩
  · rw [Fragment.namesOf, AliasFragment.namesOf, hlists]
    rfl
  · have hok : ∀ f ∈ a.targets, ∃ v, f.meaning c name = .ok v := fun f hf =>
      (h.stored_meaning hc (ha f hf) name).imp fun _ => And.left
    obtain ⟨v, hv, -⟩ := findSomeM?_ok hok
    rw [← AliasFragment.go_eq ha] at hv
    refine ⟨v, hv, ?_⟩
    rw [List.mem_eraseDups, hdeclared, AliasFragment.go_isSome ha hv]

/-- Every fragment lists the names under which it means classes. -/
theorem exists_lists (h : c.Reads parts payloads) (hc : c.Assembled) {f : Fragment}
    (hf : f ∈ c.provider.fragments) : ∃ names, f.Lists c names := by
  cases f with
  | stored f => exact h.stored_lists hc (Provider.stored_mem.1 hf)
  | aliasing a => exact h.aliasing_lists hc fun f hm => hc.targets hf hm
  | exported e => exact ⟨_, e.lists⟩

theorem found_isSome (h : c.Reads parts payloads) (hc : c.Assembled) (id : ClassId) :
    ∃ v, c.found id = .ok v ∧ (v.isSome ↔ ∃ f ∈ c.provider.packageFragments id.package,
      ∃ names, f.namesOf c = .ok names ∧ id.relative ∈ names) := by
  have hlists {f : Fragment} (hf : f ∈ c.provider.packageFragments id.package) :=
    h.exists_lists hc (Provider.mem_packageFragments.1 hf).1
  have hok : ∀ f ∈ c.provider.packageFragments id.package, ∃ v, f.meaning c id.relative = .ok v := by
    intro f hf
    obtain ⟨names, hnames⟩ := hlists hf
    exact (hnames.offered id.relative).imp fun _ => And.left
  obtain ⟨v, hv, hiff⟩ := findSomeM?_ok hok
  refine ⟨v, hv, hiff.trans (exists_congr fun f => and_congr_right fun hf => ?_)⟩
  obtain ⟨names, hnames⟩ := hlists hf
  obtain ⟨w, hw, hmem⟩ := hnames.offered id.relative
  constructor
  · rintro ⟨d, hd⟩
    obtain rfl := Except.ok.inj (hw.symm.trans hd)
    exact ⟨names, hnames.listed, hmem.2 rfl⟩
  · rintro ⟨names', hnames', hname⟩
    obtain rfl := Except.ok.inj (hnames.listed.symm.trans hnames')
    obtain ⟨d, rfl⟩ := Option.isSome_iff_exists.1 (hmem.1 hname)
    exact ⟨d, hw⟩

end Services.Reads

/-! ## In sessions -/

namespace Module

variable {S : Session} {m : Module} {l : Library} {parts : List (QualName × Nat)}
  {payloads : List Payload}

/-- **What is listed is what is found.** Take a module whose library lists parts that can all be read,
and any of its fragments. The fragment lists the same names in every session in which the module is in
use, and these are the names under which it contributes classes there. A class is found exactly when
some fragment of its package lists its name. -/
theorem listing_agrees (hS : S.Reachable) (hc : m.services? S.store = some c) (hl : l.Gives c)
    (hd : l.Decodes c parts payloads) :
    (∀ f ∈ c.provider.fragments, ∃ names, ∀ T, S.Steps T → m ∈ T.modulesInUse →
      (∃ t, f.classNames.runOn T.store = (.ok names, t)) ∧
        ∀ name, ∃ found t, (f.contributed name).runOn T.store = (.ok found, t) ∧
          (name ∈ names ↔ found.isSome)) ∧
    ∀ id T, S.Steps T → m ∈ T.modulesInUse →
      ∃ found t, (m.findClass id).runOn T.store = (.ok found, t) ∧
        (found.isSome ↔ ∃ f ∈ c.provider.packageFragments id.package, ∃ names t,
          f.classNames.runOn T.store = (.ok names, t) ∧ id.relative ∈ names) := by
  have hassembled := hS.store.tidy.assembled c (knows_of_services? hc)
  have hreads := hl.reads hd
  constructor
  · intro f hf
    obtain ⟨names, hnames⟩ := hreads.exists_lists hassembled hf
    refine ⟨names, fun T hT hm => ?_⟩
    have hs := (hS.steps hT).sound.store
    obtain ⟨-, hserves⟩ := hS.serves_later hT hc hm
    have hlisted := f.classNames_answers hs hserves.knows hf
    rw [hnames.listed] at hlisted
    obtain ⟨_, t, hrun, rfl, -⟩ := hlisted.runOn_eq
    refine ⟨⟨t, hrun⟩, fun name => ?_⟩
    obtain ⟨v, hv, hiff⟩ := hnames.offered name
    have hoffered := f.contributed_answers hs hserves hf name
    rw [hv] at hoffered
    obtain ⟨found, t, hrun, rfl, -⟩ := hoffered.runOn_eq
    exact ⟨found, t, hrun, by rw [hiff, Option.isSome_map]⟩
  · intro id T hT hm
    have hs := (hS.steps hT).sound.store
    obtain ⟨hc', hserves⟩ := hS.serves_later hT hc hm
    obtain ⟨v, hv, hiff⟩ := hreads.found_isSome hassembled id
    have hfound := Services.findClass_answers hs hserves id
    rw [hv] at hfound
    obtain ⟨found, t, hrun, rfl, -⟩ := hfound.runOn_eq
    refine ⟨found, t, (runOn_findClass hc' id).trans hrun, ?_⟩
    rw [← Option.isSome_map (f := ClassDescriptor.anonymous), hiff]
    refine exists_congr fun f => and_congr_right fun hf => exists_congr fun names => ?_
    have hlisted := f.classNames_answers hs hserves.knows (Provider.mem_packageFragments.1 hf).1
    constructor
    · rintro ⟨hnames, hname⟩
      rw [hnames] at hlisted
      obtain ⟨_, t, hrun, rfl, -⟩ := hlisted.runOn_eq
      exact ⟨t, hrun, hname⟩
    · rintro ⟨t, hrun, hname⟩
      exact ⟨(hlisted.value_of_ok hrun).1, hname⟩

/-- A class that two parts declare is found in a reserved namespace, so a fragment lists it there. -/
theorem listing_agrees_media :
    let S := Session.load {} Library.media {}
    let id := ClassId.parse "objcnames.classes/Track"
    ∃ m c, m ∈ S.modulesInUse ∧ m.services? S.store = some c ∧ Library.media.Gives c ∧
      Library.media.Decodes c (numberParts [] (Payload.media.map Payload.packageName)) Payload.media ∧
      ∃ f ∈ c.provider.packageFragments id.package, ∃ names t,
        f.classNames.runOn S.store = (.ok names, t) ∧ id.relative ∈ names := by
  intro S id
  obtain ⟨m, c, hm, hc, hgives, hdecodes⟩ := Library.media_loads
  have hall : S.modulesInUse.all (fun m =>
      ((m.findClass id).runOn S.store).1.toOption.any Option.isSome) = true := by decide +kernel
  obtain ⟨-, hfinds⟩ := listing_agrees (.single (.loaded _ _)) hc hgives hdecodes
  obtain ⟨found, t, hrun, hiff⟩ := hfinds id S .refl hm
  have hfound := List.all_eq_true.1 hall m hm
  rw [hrun] at hfound
  exact ⟨m, c, hm, hc, hgives, hdecodes, hiff.1 hfound⟩

end Module

end SymbolAtlas
