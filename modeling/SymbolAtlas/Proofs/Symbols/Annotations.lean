import SymbolAtlas.Proofs.Symbols.Faithful

/-!
# Annotation classes that are missing

The class of an annotation is searched in the parts of the module alone, and a look-up goes on to what
an alias shows and to exported declarations. So what a look-up does not find is missing as the class of
an annotation, but what is missing there may be found.

* `Fragment.exists_annotationOf`: where the annotations of a class come from;
* `Services.annotationOf_missing_iff`: they miss a class when no part has a record of it;
* `Services.Reads.found_beside`: what a look-up finds then is no class of a part under that id;
* `Module.annotation_missing_iff`: what is missing, and what a look-up finds.
-/

namespace SymbolAtlas

open Query

variable {c : Services} {id : ClassId} {d : ClassDescriptor} {a : Annotation}

def AnnotationClass.IsMissing (k : AnnotationClass) : Prop :=
  ∃ placeholder, k = .missing placeholder

instance (k : AnnotationClass) : Decidable k.IsMissing :=
  match k with
  | .declared _ => isFalse fun ⟨_, h⟩ => by cases h
  | .missing placeholder => isTrue ⟨placeholder, rfl⟩

theorem AnnotationClass.isMissing_anonymous {k : AnnotationClass} :
    k.anonymous.IsMissing ↔ k.IsMissing := by
  cases k <;> simp [IsMissing, anonymous]

@[simp] theorem AnnotationClass.classId_anonymous (k : AnnotationClass) :
    k.anonymous.classId = k.classId := by
  cases k <;> rfl

/-! ## Where annotations come from -/

namespace Services

theorem exists_annotationOf (h : c.classOf id = .ok (some d)) (ha : a ∈ d.annotations) :
    ∃ record, c.annotationOf record = .ok a := by
  obtain ⟨found, -, h⟩ := except_bind_eq_ok.1 h
  cases found with
  | none => cases h
  | some found =>
    obtain ⟨d', hclass, hd⟩ := except_map_eq_ok.1 h
    obtain rfl := Option.some.inj hd
    obtain ⟨annotations, hannotations, hd⟩ := except_bind_eq_ok.1 hclass
    obtain rfl := Except.ok.inj hd
    obtain ⟨record, -, hrecord⟩ := (mem_mapM hannotations).1 ha
    exact ⟨record, hrecord⟩

/-- An annotation refers to a placeholder when no part has a record of its class. -/
theorem annotationOf_missing_iff {record : AnnotationRecord} (h : c.annotationOf record = .ok a) :
    a.annotationClass.IsMissing ↔ c.recordOf a.annotationClass.classId = .ok none := by
  obtain ⟨found, hfound, h⟩ := except_bind_eq_ok.1 h
  obtain rfl := Except.ok.inj h
  cases found with
  | none => exact iff_of_true ⟨_, rfl⟩ hfound
  | some found =>
    refine iff_of_false (fun ⟨k, hk⟩ => by cases hk) fun hnone => ?_
    cases hfound.symm.trans hnone

end Services

/-- The annotations of what a fragment offers were made from records. -/
theorem Fragment.exists_annotationOf (hc : c.Assembled) {f : Fragment} (hf : f ∈ c.provider.fragments)
    {name : Name} (h : f.meaning c name = .ok (some d)) (ha : a ∈ d.annotations) :
    ∃ record, c.annotationOf record = .ok a := by
  cases f with
  | stored f => exact Services.exists_annotationOf (StoredFragment.classOf_of_meaning h) ha
  | aliasing k =>
    have hsearch := (AliasFragment.go_eq fun f hm => hc.targets hf hm).symm.trans h
    obtain ⟨f, -, hmeans⟩ := mem_of_findSomeM? hsearch
    exact Services.exists_annotationOf (StoredFragment.classOf_of_meaning hmeans) ha
  | exported e =>
    obtain ⟨declaration, -, rfl⟩ := Option.map_eq_some_iff.1 (Except.ok.inj h)
    cases ha

theorem Module.exists_annotationOf (hc : c.Assembled) {k : LookUp}
    (h : Module.meaning c id k = .ok (some d)) (ha : a ∈ d.annotations) :
    ∃ record, c.annotationOf record = .ok a := by
  have hfound (h : c.found id = .ok (some d)) : ∃ record, c.annotationOf record = .ok a := by
    obtain ⟨f, hf, hmeans⟩ := mem_of_findSomeM? h
    exact f.exists_annotationOf hc (Provider.mem_packageFragments.1 hf).1 hmeans ha
  cases k with
  | finding => exact hfound h
  | resolving =>
    obtain ⟨d', hresolved, hd⟩ := except_map_eq_ok.1 h
    obtain rfl := Option.some.inj hd
    obtain ⟨found, hfind, hd⟩ := except_bind_eq_ok.1 hresolved
    cases found with
    | none =>
      obtain rfl := Except.ok.inj hd
      cases ha
    | some d =>
      obtain rfl := Except.ok.inj hd
      exact hfound hfind

/-! ## What is missing -/

/-- A look-up finds no class of a part under the id exactly when no part has a record of it. -/
theorem Services.Reads.found_beside {parts : List (QualName × Nat)} {payloads : List Payload}
    (h : c.Reads parts payloads) (hc : c.Assembled) (id : ClassId) :
    ∃ v, c.found id = .ok v ∧
      (c.recordOf id = .ok none ↔ ¬ ∃ d, v = some d ∧ d.origin = .deserialized ∧ d.classId = id) := by
  have hrecord := h.recordOf hc id
  cases hfirst : (declaredIn id.package parts payloads).find? (·.name == id.relative.text) with
  | none =>
    rw [hfirst] at hrecord
    obtain ⟨found, hfound, hnone⟩ := except_map_eq_ok.1 hrecord
    obtain ⟨v, hv, hother⟩ := h.found_undeclared hc hfirst
    refine ⟨v, hv, iff_of_true ?_ fun ⟨d, hd, horigin, hid⟩ => hother d hd horigin hid⟩
    rw [hfound, Option.map_eq_none_iff.1 hnone]
  | some record =>
    obtain ⟨d, hclass, hread⟩ := h.classOf_declared hc hfirst
    have hfound := found_of_inParts hc ((hc.inParts_eq_classOf id).trans hclass)
    refine ⟨some d, hfound, iff_of_false (fun hnone => ?_) fun hnot => ?_⟩
    · rw [hnone, hfirst] at hrecord
      cases hrecord
    · exact hnot ⟨d, rfl, hread.origin, hread.classId⟩

namespace Module

variable {S T : Session} {m : Module} {l : Library} {parts : List (QualName × Nat)}
  {payloads : List Payload} {k : LookUp} {t : Store}

/-- **An annotation misses its class exactly when no payload of the module declares it.** Take a module
whose library lists parts that can all be read, a class that was looked up in it, and an annotation of
the class. Whenever the class of the annotation is looked up, the look-up answers, and it finds a class
that a payload declares under that id exactly when the annotation does not refer to a placeholder. So
the annotation of a class that is not found refers to one, but so does that of a class that is found
through an alias or as an exported declaration. -/
theorem annotation_missing_iff (hS : S.Reachable) (hm : m ∈ S.modulesInUse)
    (hc : m.services? S.store = some c) (hl : l.Gives c) (hd : l.Decodes c parts payloads)
    (hrun : (m.lookUp id k).runOn S.store = (.ok (some d), t)) (ha : a ∈ d.annotations)
    (hT : S.Steps T) (hlater : m ∈ T.modulesInUse) :
    ∃ found u, (m.findClass a.annotationClass.classId).runOn T.store = (.ok found, u) ∧
      (a.annotationClass.IsMissing ↔ ¬ ∃ d', found = some d' ∧ d'.origin = .deserialized ∧
        d'.classId = a.annotationClass.classId) := by
  obtain ⟨-, hserves⟩ := hS.serves_later .refl hc hm
  obtain ⟨hc', hserves'⟩ := hS.serves_later hT hc hlater
  have hassembled := hS.store.tidy.assembled c hserves.knows
  have hmeans := ((lookUp_answers hS.sound.store hc hserves id k).value_of_ok hrun).1
  obtain ⟨record, hrecord⟩ :=
    exists_annotationOf hassembled hmeans (List.mem_map_of_mem (f := Annotation.anonymous) ha)
  have hmissing := Services.annotationOf_missing_iff hrecord
  unfold Annotation.anonymous at hmissing
  rw [AnnotationClass.isMissing_anonymous, AnnotationClass.classId_anonymous] at hmissing
  obtain ⟨v, hv, hbeside⟩ := (hl.reads hd).found_beside hassembled a.annotationClass.classId
  have hanswers := Services.findClass_answers (hS.steps hT).sound.store hserves'
    a.annotationClass.classId
  rw [hv] at hanswers
  obtain ⟨found, u, hfind, rfl, -⟩ := hanswers.runOn_eq
  refine ⟨found, u, (runOn_findClass hc' _).trans hfind, (hmissing.trans hbeside).trans ?_⟩
  refine not_congr ⟨?_, ?_⟩
  · rintro ⟨d', hd', horigin, hid⟩
    obtain ⟨d', rfl, rfl⟩ := Option.map_eq_some_iff.1 hd'
    exact ⟨d', rfl, horigin, hid⟩
  · rintro ⟨d', rfl, horigin, hid⟩
    exact ⟨d'.anonymous, rfl, horigin, hid⟩

end Module

/-- A class, and one whose annotations have this class, under the name that an alias shows it and under
its own name, and a class that there is none of. -/
def Payload.annotated : Payload :=
  ⟨"sdl", .current, [⟨"SDL_Window", .plain, 0, [], []⟩, ⟨"User", .plain, 0, [],
    [⟨"cnames.structs/SDL_Window", []⟩, ⟨"sdl/SDL_Window", []⟩, ⟨"native/CStruct", []⟩]⟩], [], []⟩

def Library.annotated : Library :=
  ((MemoryLibrary.ofPayloads? "sdl" "sdl" ((Manifest.empty.withPackage "sdl").withInterop true)
    [.annotated] []).getD ⟨"sdl", .empty, [], []⟩).toLibrary

theorem Library.annotated_loads :
    let S := Session.load {} Library.annotated {}
    ∃ m c, m ∈ S.modulesInUse ∧ m.services? S.store = some c ∧ Library.annotated.Gives c ∧
      Library.annotated.Decodes c (numberParts [] ([Payload.annotated].map Payload.packageName))
        [.annotated] :=
  MemoryLibrary.ofPayloads?_loads _ _ _ _ _ (by decide +kernel) (by decide +kernel) (by decide +kernel)

namespace Module

/-- Which of the annotations miss their class, and whether it is found afterwards. -/
theorem annotations_annotated :
    let S := Session.load {} Library.annotated {}
    ∀ m ∈ S.modulesInUse, ∃ d t,
      (m.lookUp (.parse "sdl/User") .finding).runOn S.store = (.ok (some d), t) ∧
        d.annotations.map (fun a => (a.annotationClass.classId, decide a.annotationClass.IsMissing,
            ((m.findClass a.annotationClass.classId).runOn t).1.toOption.map Option.isSome)) =
          [(.parse "cnames.structs/SDL_Window", true, some true),
            (.parse "sdl/SDL_Window", false, some true), (.parse "native/CStruct", true, some false)] := by
  intro S m hm
  have hall : S.modulesInUse.all (fun m =>
      let run := (m.lookUp (.parse "sdl/User") .finding).runOn S.store
      run.1.toOption.join.any fun d =>
        d.annotations.map (fun a => (a.annotationClass.classId, decide a.annotationClass.IsMissing,
            ((m.findClass a.annotationClass.classId).runOn run.2).1.toOption.map Option.isSome)) ==
          [(.parse "cnames.structs/SDL_Window", true, some true),
            (.parse "sdl/SDL_Window", false, some true), (.parse "native/CStruct", true, some false)]) =
      true := by decide +kernel
  have hm := List.all_eq_true.1 hall m hm
  rcases hrun : (m.lookUp (.parse "sdl/User") .finding).runOn S.store with ⟨_ | _ | d, t⟩
  · simp [hrun, Except.toOption] at hm
  · simp [hrun, Except.toOption] at hm
  · rw [hrun] at hm
    exact ⟨d, t, rfl, beq_iff_eq.1 hm⟩

/-- All parts of the module can be read, and an annotation misses a class that is found through an
alias. -/
theorem annotation_missing_found :
    let S := Session.load {} Library.annotated {}
    ∃ m c d t, m ∈ S.modulesInUse ∧ m.services? S.store = some c ∧ Library.annotated.Gives c ∧
      Library.annotated.Decodes c (numberParts [] ([Payload.annotated].map Payload.packageName))
        [.annotated] ∧
      (m.lookUp (.parse "sdl/User") .finding).runOn S.store = (.ok (some d), t) ∧
      ∃ a ∈ d.annotations, a.annotationClass.IsMissing ∧
        ∃ d' u, (m.findClass a.annotationClass.classId).runOn t = (.ok (some d'), u) := by
  intro S
  obtain ⟨m, c, hm, hc, hgives, hdecodes⟩ := Library.annotated_loads
  obtain ⟨d, t, hrun, hannotations⟩ := annotations_annotated m hm
  obtain ⟨a, rest, hlist, hfirst, -⟩ := List.map_eq_cons_iff.1 hannotations
  obtain ⟨-, hmissing, hfound⟩ : _ ∧ _ ∧ _ := by simpa using hfirst
  refine ⟨m, c, d, t, hm, hc, hgives, hdecodes, hrun, a, hlist ▸ List.mem_cons_self, hmissing, ?_⟩
  rcases hfind : (m.findClass a.annotationClass.classId).runOn t with ⟨e | _ | d', u⟩
  · simp [hfind, Except.toOption] at hfound
  · simp [hfind, Except.toOption] at hfound
  · exact ⟨d', u, rfl⟩

/-- An annotation of a class that a part declares does not miss it, and a look-up finds that class. -/
theorem annotation_missing_iff_annotated :
    let S := Session.load {} Library.annotated {}
    ∃ m c d t, m ∈ S.modulesInUse ∧ m.services? S.store = some c ∧ Library.annotated.Gives c ∧
      Library.annotated.Decodes c (numberParts [] ([Payload.annotated].map Payload.packageName))
        [.annotated] ∧
      (m.lookUp (.parse "sdl/User") .finding).runOn S.store = (.ok (some d), t) ∧
      ∃ a ∈ d.annotations, ∃ d' u,
        (m.findClass a.annotationClass.classId).runOn S.store = (.ok (some d'), u) ∧
          d'.origin = .deserialized ∧ d'.classId = .parse "sdl/SDL_Window" := by
  intro S
  obtain ⟨m, c, hm, hc, hgives, hdecodes⟩ := Library.annotated_loads
  obtain ⟨d, t, hrun, hannotations⟩ := annotations_annotated m hm
  obtain ⟨first, rest, hlist, -, hrest⟩ := List.map_eq_cons_iff.1 hannotations
  obtain ⟨a, last, rfl, hsecond, -⟩ := List.map_eq_cons_iff.1 hrest
  obtain ⟨hid, hmissing, -⟩ : _ ∧ _ ∧ _ := by simpa using hsecond
  have ha : a ∈ d.annotations := by simp [hlist]
  obtain ⟨found, u, hfind, hiff⟩ := annotation_missing_iff (.single (.loaded _ _)) hm hc hgives hdecodes
    hrun ha .refl hm
  obtain ⟨d', rfl, horigin, hclass⟩ := not_not.1 (mt hiff.2 hmissing)
  exact ⟨m, c, d, t, hm, hc, hgives, hdecodes, hrun, a, ha, d', u, hfind, horigin, hclass.trans hid⟩

end Module

end SymbolAtlas
