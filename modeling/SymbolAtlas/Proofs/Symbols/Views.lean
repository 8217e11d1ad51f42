import SymbolAtlas.Proofs.Symbols.Footprint
import SymbolAtlas.Proofs.Symbols.Unpacking

/-!
# Reserved namespaces as views of a package

A module of native bindings shows the classes of its package in the reserved namespaces. Where the
header lists no part in a namespace, there is nothing else in it: a look-up finds a class exactly when
a part of the package declares it, and finds the descriptor that it has in the package. Declarations
that are exported from the package are not shown.

* `Library.Views`: a namespace where a library shows its package, and nothing else;
* `Library.Views.found`: what is found there is what the parts of the package have;
* `Session.Reachable.shown_again`: whichever name a class was found under, it is the same under others;
* `Session.Reachable.showsAlike`: look-ups in the package and in its views, in any order.
-/

namespace SymbolAtlas

open Query

/-- The header of the library lists a part of the package. -/
def Library.HasPart (l : Library) (package : QualName) : Prop :=
  ∃ bytes header, l.header = .ok bytes ∧ Header.parse l.name bytes = .ok header ∧
    package ∈ header.packages.map .ofText

/-- The library shows its package under another name, a reserved one, where it has no parts. -/
structure Library.Views (l : Library) (space package : QualName) : Prop where
  shows : l.Shows space package
  other : space ≠ package
  empty : ¬ l.HasPart space

/-- Where classes of the package are looked up: in the package itself or in one of its views. -/
def Library.ShowsIn (l : Library) (package space : QualName) : Prop :=
  space = package ∨ l.Views space package

/-! ## What is meant -/

namespace Services

variable {c : Services} {id : ClassId} {e : LoadError}

/-- The parts of a package have a class when one of them declares it. -/
theorem inParts_isSome {v : Option ClassDescriptor} (h : c.inParts id = .ok v) :
    v.isSome ↔ ∃ f, .stored f ∈ c.provider.packageFragments id.package ∧ f.Declares c id.relative := by
  have hstored : ∀ f ∈ c.parts id.package, f ∈ c.provider.storedFragments :=
    fun f hf => (mem_parts.1 hf).1
  rw [AliasFragment.go_isSome hstored ((AliasFragment.go_eq hstored).trans h)]
  simp only [mem_parts, Provider.mem_packageFragments, Provider.stored_mem, Fragment.package]

/-- What cannot be looked up in the parts of a package cannot be looked up in the package. -/
theorem Assembled.found_of_inParts_error (hc : c.Assembled) (h : c.inParts id = .error e) :
    c.found id = .error e := by
  obtain ⟨synthetic, hfragments, -⟩ := hc.packageFragments id.package
  rw [found, hfragments, findSomeM?_append, findSomeM?_map]
  change c.inParts id >>= _ = _
  rw [h]
  rfl

variable {package : QualName} {name : Name}

/-- Beside its parts, nothing in the package fails when they have nothing. -/
theorem Binds.found_of_absent (h : c.Binds package) (hc : c.Assembled)
    (hnone : c.inParts ⟨package, name⟩ = .ok none) : ∃ v, c.found ⟨package, name⟩ = .ok v := by
  obtain ⟨synthetic, hfragments, hsynthetic⟩ := hc.packageFragments package
  have hbeside : ∀ f ∈ synthetic, ∃ v, f.meaning c name = .ok v := by
    intro f hf
    have hmem := (Provider.mem_packageFragments.1 (hfragments ▸ List.mem_append_right _ hf)).1
    cases f with
    | stored f => cases hsynthetic _ hf
    | aliasing a => exact ⟨none, (h.alias_meaning hmem name).trans hnone⟩
    | exported e => exact ⟨_, rfl⟩
  obtain ⟨v, hv, -⟩ := findSomeM?_ok hbeside
  refine ⟨v, ?_⟩
  rw [found, hfragments, findSomeM?_append, findSomeM?_map]
  change c.inParts ⟨package, name⟩ >>= _ = _
  rw [hnone]
  exact hv

/-- A look-up in the package fails as a look-up in its parts does. -/
theorem Binds.found_eq_error (h : c.Binds package) (hc : c.Assembled) :
    c.found ⟨package, name⟩ = .error e ↔ c.inParts ⟨package, name⟩ = .error e := by
  refine ⟨fun hfound => ?_, hc.found_of_inParts_error⟩
  cases hparts : c.inParts ⟨package, name⟩ with
  | error e' => rw [← hfound, hc.found_of_inParts_error hparts]
  | ok v =>
    cases v with
    | none =>
      obtain ⟨w, hw⟩ := h.found_of_absent hc hparts
      cases hw.symm.trans hfound
    | some d => cases (found_of_inParts hc hparts).symm.trans hfound

end Services

namespace Library

variable {l : Library} {c : Services} {space package : QualName} {name : Name} {d : ClassDescriptor}

theorem Gives.hasPart (h : l.Gives c) {f : StoredFragment} (hf : f ∈ c.provider.storedFragments) :
    l.HasPart f.package := by
  obtain ⟨bytes, header, reports, hbytes, hheader, hstored⟩ := h.lists
  refine ⟨bytes, header, hbytes, hheader, ?_⟩
  rw [← l.map_package_storedOf header reports, ← hstored, List.map_map]
  exact List.mem_map.2 ⟨f, hf, rfl⟩

theorem Shows.exports (h : l.Shows space package) (hl : l.Gives c) :
    ∃ e, l.Exports c e ∧ e.package = package := by
  obtain ⟨hinterop, hpackage, -⟩ := h
  obtain ⟨e, he⟩ := hl.interop hinterop
  exact ⟨e, he, Option.some.inj (he.package.symm.trans hpackage)⟩

/-- In a view is found what the parts of the package have. -/
theorem Views.found (h : l.Views space package) (hl : l.Gives c) (hc : c.Assembled) (name : Name) :
    c.found ⟨space, name⟩ = c.inParts ⟨package, name⟩ := by
  obtain ⟨e, hexports, rfl⟩ := h.shows.exports hl
  obtain ⟨-, -, s, rfl⟩ := h.shows
  obtain ⟨a, ha, rfl⟩ := hexports.exists_alias s
  exact (hexports.binds hc).found_alias ha h.other.symm
    (fun f hf heq => h.empty (heq ▸ hl.hasPart hf)) name

namespace ShowsIn

theorem found_of_inParts (h : l.ShowsIn package space) (hl : l.Gives c) (hc : c.Assembled)
    (hd : c.inParts ⟨package, name⟩ = .ok (some d)) : c.found ⟨space, name⟩ = .ok (some d) := by
  rcases h with rfl | h
  · exact Services.found_of_inParts hc hd
  · rw [h.found hl hc, hd]

theorem inParts_of_found (h : l.ShowsIn package space) (hl : l.Gives c) (hc : c.Assembled)
    (hbinds : c.Binds package) (hd : c.found ⟨space, name⟩ = .ok (some d))
    (horigin : d.origin = .deserialized) : c.inParts ⟨package, name⟩ = .ok (some d) := by
  rcases h with rfl | h
  · exact hbinds.inParts_of_found hc hd horigin
  · rw [← h.found hl hc, hd]

/-- Parts that lie there are parts of the package. -/
theorem eq_of_part (h : l.ShowsIn package space) (hl : l.Gives c) {f : StoredFragment}
    (hf : f ∈ c.provider.storedFragments) (hspace : f.package = space) : space = package := by
  rcases h with rfl | h
  · rfl
  · exact absurd (hspace ▸ hl.hasPart hf) h.empty

end ShowsIn

end Library

/-! ## In sessions -/

theorem Module.declares_iff {s : Store} {m : Module} {c : Services} (hc : m.services? s = some c)
    {id : ClassId} {v : Option ClassDescriptor} (h : c.inParts id = .ok v) :
    v.isSome ↔ m.Declares s id := by
  rw [Services.inParts_isSome h]
  simp only [Declares, hc, Option.some.injEq, exists_eq_left']

namespace Session

variable {S T U : Session} {m : Module} {c : Services} {l : Library} {package space other : QualName}
  {name : Name} {id : ClassId} {d : ClassDescriptor} {found : Option ClassDescriptor}

theorem steps_findClass {r : Except LoadError (Option ClassDescriptor)}
    (hrun : S.query (m.findClass id) = (r, T)) : S.Steps T ∧ T.modulesInUse = S.modulesInUse := by
  obtain ⟨-, rfl⟩ := Prod.mk.inj hrun
  exact ⟨.single (.asked (.through fun _ hc => .findClass (Module.knows_of_services? hc) id)), rfl⟩

/-- A module in use finds what is meant. -/
theorem Sound.map_findClass (h : S.Sound) (hm : m ∈ S.modulesInUse) (hc : m.services? S.store = some c)
    (id : ClassId) :
    (S.query (m.findClass id)).1.map (Option.map ClassDescriptor.anonymous) = c.found id :=
  (Module.lookUp_answers h.store hc ⟨Module.knows_of_services? hc, h.live m hm c hc⟩ id .finding).value

theorem Sound.query_ok (h : S.Sound) (hm : m ∈ S.modulesInUse) (hc : m.services? S.store = some c)
    (hrun : S.query (m.findClass id) = (.ok found, T)) :
    c.found id = .ok (found.map ClassDescriptor.anonymous) := by
  rw [← h.map_findClass hm hc id, hrun]
  rfl

theorem Sound.query_none (h : S.Sound) (hm : m ∈ S.modulesInUse) (hc : m.services? S.store = some c)
    (hnone : c.found id = .ok none) : (S.query (m.findClass id)).1 = .ok none := by
  obtain ⟨found, hfound, hmap⟩ := except_map_eq_ok.1 ((h.map_findClass hm hc id).trans hnone)
  rw [hfound, Option.map_eq_none_iff.1 hmap]

theorem Sound.query_error (h : S.Sound) (hm : m ∈ S.modulesInUse) (hc : m.services? S.store = some c)
    {e : LoadError} : (S.query (m.findClass id)).1 = .error e ↔ c.found id = .error e := by
  rw [← h.map_findClass hm hc id, except_map_eq_error]

/-- A class that was found in the package, or in a view of it, is the same descriptor ever after, in the
package and in all of its views. -/
theorem Reachable.shown_again (hS : S.Reachable) (hm : m ∈ S.modulesInUse)
    (hc : m.services? S.store = some c) (hl : l.Gives c) (hbinds : c.Binds package)
    (hspace : l.ShowsIn package space) (hother : l.ShowsIn package other)
    (hrun : S.query (m.findClass ⟨space, name⟩) = (.ok (some d), T)) (horigin : d.origin = .deserialized)
    (hU : T.Steps U) (hlater : m ∈ U.modulesInUse) :
    (U.query (m.findClass ⟨other, name⟩)).1 = .ok (some d) := by
  have hassembled := hS.store.tidy.assembled c (Module.knows_of_services? hc)
  obtain ⟨-, hserves⟩ := hS.serves_later .refl hc hm
  have hparts := hspace.inParts_of_found hl hassembled hbinds (hS.sound.query_ok hm hc hrun) horigin
  have hfind : (c.findClass ⟨space, name⟩).runOn S.store = (.ok (some d), T.store) := by
    obtain ⟨hanswer, rfl⟩ := Prod.mk.inj hrun
    rw [← hanswer, ← Module.runOn_findClass hc]
    rfl
  -- What was found is remembered as a class of the package, whatever name it was found under.
  have hremembers := hbinds.remembers hS.sound.store hserves
    (fun f hf heq => hspace.eq_of_part hl hf heq) horigin hfind
  obtain ⟨hT, -⟩ := steps_findClass hrun
  have hremembers' := (hU.store (hT.sound hS.sound)).remembers hremembers
  obtain ⟨hc', hserves'⟩ := hS.serves_later (hT.trans hU) hc hlater
  exact Module.lookUp_remembered ⟨other, name⟩ (hS.steps (hT.trans hU)).sound.store hc' hserves' hbinds
    (fun f hf heq => hother.eq_of_part hl hf heq) (hother.found_of_inParts hl hassembled hparts) horigin
    hremembers' .finding

/-- What no part of the package has is in none of the views. -/
theorem Reachable.absent_later (hS : S.Reachable) (hc : m.services? S.store = some c) (hl : l.Gives c)
    (hnone : c.inParts ⟨package, name⟩ = .ok none) (hspace : l.Views space package) (hU : S.Steps U)
    (hlater : m ∈ U.modulesInUse) : (U.query (m.findClass ⟨space, name⟩)).1 = .ok none := by
  have hassembled := hS.store.tidy.assembled c (Module.knows_of_services? hc)
  obtain ⟨hc', -⟩ := hS.serves_later hU hc hlater
  exact (hS.steps hU).sound.query_none hlater hc' ((hspace.found hl hassembled name).trans hnone)

/-- How look-ups of a name in the package of a library and in the views of it go together. -/
structure ShowsAlike (S : Session) (m : Module) (l : Library) (package : QualName) (name : Name) :
    Prop where
  /-- In a view a class is found exactly when a part of the package declares it. -/
  finds : ∀ space, l.Views space package → ∀ found T,
    S.query (m.findClass ⟨space, name⟩) = (.ok found, T) →
      (found.isSome ↔ m.Declares S.store ⟨package, name⟩)
  /-- What was found in a view is found in all views, and a class that is declared in the package. -/
  shown : ∀ space, l.Views space package → ∀ found T,
    S.query (m.findClass ⟨space, name⟩) = (.ok found, T) → ∀ U, T.Steps U → m ∈ U.modulesInUse →
      (∀ other, l.Views other package → (U.query (m.findClass ⟨other, name⟩)).1 = .ok found) ∧
      (m.Declares S.store ⟨package, name⟩ → (U.query (m.findClass ⟨package, name⟩)).1 = .ok found)
  /-- What was found in the package is found in all views if it is declared there. Otherwise nothing is
  found in them. -/
  own : ∀ found T, S.query (m.findClass ⟨package, name⟩) = (.ok found, T) → ∀ U, T.Steps U →
    m ∈ U.modulesInUse → ∀ space, l.Views space package →
      (m.Declares S.store ⟨package, name⟩ →
        found.isSome ∧ (U.query (m.findClass ⟨space, name⟩)).1 = .ok found) ∧
      (¬ m.Declares S.store ⟨package, name⟩ → (U.query (m.findClass ⟨space, name⟩)).1 = .ok none)
  /-- A look-up in a view fails as one in the package does. -/
  fails : ∀ space, l.Views space package → ∀ e,
    (S.query (m.findClass ⟨space, name⟩)).1 = .error e ↔
      (S.query (m.findClass ⟨package, name⟩)).1 = .error e

/-- **Reserved namespaces are exact views of the package.** In every session, for every module of native
bindings in use and every name, look-ups in the package and in the views of it go together. -/
theorem Reachable.showsAlike (hS : S.Reachable) (hm : m ∈ S.modulesInUse) (hl : m.Presents S.store l)
    (hinterop : l.manifest.isInterop = true) (hpackage : l.manifest.package = some package)
    (name : Name) : S.ShowsAlike m l package name := by
  obtain ⟨c, hc, hl⟩ := hl
  have hassembled := hS.store.tidy.assembled c (Module.knows_of_services? hc)
  obtain ⟨e, hexports⟩ := hl.interop hinterop
  obtain rfl : e.package = package := Option.some.inj (hexports.package.symm.trans hpackage)
  have hbinds := hexports.binds hassembled
  have hparts {space : QualName} (hspace : l.Views space e.package) {found : Option ClassDescriptor}
      {T : Session} (hrun : S.query (m.findClass ⟨space, name⟩) = (.ok found, T)) :
      c.inParts ⟨e.package, name⟩ = .ok (found.map ClassDescriptor.anonymous) :=
    (hspace.found hl hassembled name).symm.trans (hS.sound.query_ok hm hc hrun)
  refine { finds := ?_, shown := ?_, own := ?_, fails := ?_ }
  · intro space hspace found T hrun
    rw [← Module.declares_iff hc (hparts hspace hrun), Option.isSome_map]
  · intro space hspace found T hrun U hU hlater
    have hparts := hparts hspace hrun
    cases found with
    | none =>
      have habsent {other : QualName} (hother : l.Views other e.package) :=
        hS.absent_later hc hl hparts hother ((steps_findClass hrun).1.trans hU) hlater
      refine ⟨fun other hother => habsent hother, fun hd => ?_⟩
      exact absurd ((Module.declares_iff hc hparts).2 hd) nofun
    | some d =>
      have horigin : d.origin = .deserialized := Services.origin_of_inParts (d := d.anonymous) hparts
      have hagain {other : QualName} (hother : l.ShowsIn e.package other) :=
        hS.shown_again hm hc hl hbinds (.inr hspace) hother hrun horigin hU hlater
      exact ⟨fun other hother => hagain (.inr hother), fun _ => hagain (.inl rfl)⟩
  · intro found T hrun U hU hlater space hspace
    have hfound := hS.sound.query_ok hm hc hrun
    cases hparts : c.inParts ⟨e.package, name⟩ with
    | error e' => cases (hassembled.found_of_inParts_error hparts).symm.trans hfound
    | ok v =>
      have hiff := Module.declares_iff hc hparts
      cases v with
      | none =>
        refine ⟨fun hd => absurd (hiff.2 hd) nofun, fun _ => ?_⟩
        exact hS.absent_later hc hl hparts hspace ((steps_findClass hrun).1.trans hU) hlater
      | some d' =>
        have hsome := hfound.symm.trans (Services.found_of_inParts hassembled hparts)
        obtain ⟨d, rfl, rfl⟩ := Option.map_eq_some_iff.1 (Except.ok.inj hsome)
        have horigin : d.origin = .deserialized := Services.origin_of_inParts (d := d.anonymous) hparts
        refine ⟨fun _ => ⟨rfl, ?_⟩, fun hnot => absurd (hiff.1 rfl) hnot⟩
        exact hS.shown_again hm hc hl hbinds (.inl rfl) (.inr hspace) hrun horigin hU hlater
  · intro space hspace e'
    rw [hS.sound.query_error hm hc, hS.sound.query_error hm hc, hspace.found hl hassembled,
      hbinds.found_eq_error hassembled]

/-- The class of a part is one descriptor in its package and in a reserved namespace, where the exported
declaration of that package is not shown. -/
theorem showsAlike_video :
    let S := load {} video {}
    let structs := ForwardNamespace.cStructs.package
    ∃ m, m ∈ S.modulesInUse ∧ m.Presents S.store video ∧ video.Views structs (.ofText "video") ∧
      (∃ d T, S.query (m.findClass ⟨structs, ⟨"Window"⟩⟩) = (.ok (some d), T) ∧
        (T.query (m.findClass ⟨.ofText "video", ⟨"Window"⟩⟩)).1 = .ok (some d)) ∧
      ∃ d T, S.query (m.findClass ⟨.ofText "video", ⟨"Surface"⟩⟩) = (.ok (some d), T) ∧
        (T.query (m.findClass ⟨structs, ⟨"Surface"⟩⟩)).1 = .ok none := by
  intro S structs
  have hok : ((Module.load video {}).runOn {}).1.isOk = true := by decide +kernel
  have hanswers : S.modulesInUse.all (fun m =>
      let finds (package : QualName) (name : String) :=
        (S.query (m.findClass ⟨package, ⟨name⟩⟩)).1.toOption.map Option.isSome
      finds structs "Window" == some true && finds (.ofText "video") "Surface" == some true &&
        finds structs "Surface" == some false) = true := by decide +kernel
  have hheader : video.header = .ok (Header.mk "video" ["video"]).file := by decide +kernel
  have hparse : Header.parse video.name (Header.mk "video" ["video"]).file =
      .ok (Header.mk "video" ["video"]) := by decide +kernel
  rcases hload : (Module.load video {}).runOn {} with ⟨_ | m, t⟩
  · rw [hload] at hok
    cases hok
  obtain ⟨hm, hl⟩ : m ∈ S.modulesInUse ∧ m.Presents S.store video := presents_load sound_start hload
  have hviews : video.Views structs (.ofText "video") := by
    refine ⟨⟨by decide +kernel, by decide +kernel, .cStructs, rfl⟩, by decide +kernel, ?_⟩
    rintro ⟨bytes, header, hbytes, hparse', hpart⟩
    obtain rfl := Except.ok.inj (hheader.symm.trans hbytes)
    obtain rfl := Except.ok.inj (hparse.symm.trans hparse')
    exact absurd hpart (by decide +kernel)
  have hanswers := List.all_eq_true.1 hanswers m hm
  simp only [Bool.and_eq_true, beq_iff_eq] at hanswers
  obtain ⟨⟨hwindow, hsurface⟩, habsent⟩ := hanswers
  have hasked {id : ClassId} {found : Bool}
      (h : (S.query (m.findClass id)).1.toOption.map Option.isSome = some found) :
      ∃ v T, S.query (m.findClass id) = (.ok v, T) ∧ v.isSome = found := by
    rcases hrun : S.query (m.findClass id) with ⟨e | v, T⟩
    · rw [hrun] at h
      cases h
    · rw [hrun] at h
      exact ⟨v, T, rfl, Option.some.inj h⟩
  have hstay {id : ClassId} {r : Except LoadError (Option ClassDescriptor)} {T : Session}
      (hrun : S.query (m.findClass id) = (r, T)) : m ∈ T.modulesInUse :=
    (steps_findClass hrun).2 ▸ hm
  have halike (name : Name) : S.ShowsAlike m video (.ofText "video") name :=
    Reachable.showsAlike (.single (.loaded _ _)) hm hl hviews.shows.1 hviews.shows.2.1 name
  refine ⟨m, hm, hl, hviews, ?_, ?_⟩
  · obtain ⟨v, T, hrun, hsome⟩ := hasked hwindow
    obtain ⟨d, rfl⟩ := Option.isSome_iff_exists.1 hsome
    have hdeclares := ((halike _).finds _ hviews _ _ hrun).1 rfl
    exact ⟨d, T, hrun, ((halike _).shown _ hviews _ _ hrun T .refl (hstay hrun)).2 hdeclares⟩
  · obtain ⟨v, T, hrun, hsome⟩ := hasked hsurface
    obtain ⟨d, rfl⟩ := Option.isSome_iff_exists.1 hsome
    obtain ⟨w, T', hrun', hnone⟩ := hasked habsent
    have hundeclared := mt ((halike _).finds _ hviews _ _ hrun').2 (by simp [hnone])
    exact ⟨d, T, hrun, ((halike _).own _ _ hrun T .refl (hstay hrun) _ hviews).2 hundeclared⟩

end Session

end SymbolAtlas
