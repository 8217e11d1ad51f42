import SymbolAtlas.Proofs.Symbols.Offers
import SymbolAtlas.Proofs.Symbols.Questions

namespace SymbolAtlas

open Query

variable {s t : Store} {c : Services} {id : ClassId}

theorem Fragment.contributed_lasts (hs : s.Sound) (hc : s.Knows c) {f : Fragment}
    (hf : f ∈ c.provider.fragments) (name : Name) : (f.contributed name).Lasts s := by
  cases f with
  | stored f => exact f.contributed_lasts hs ⟨hc, Provider.stored_mem.1 hf⟩ name
  | aliasing a => exact AliasFragment.go_lasts hs (fun f hm => ⟨hc, hs.targets c hc a hf f hm⟩) name
  | exported e =>
    change (e.contributed name).Lasts s
    unfold ExportedFragment.contributed
    split
    · have hlasts := e.placeholder_lasts (s := s)
      simp only [map_eq_pure_bind] at hlasts
      exact hlasts _
    · exact fun _ _ h => by cases (Prod.mk.inj h).1

namespace Services

theorem runOn_findClass (hc : s.Serves c) (id : ClassId) : (c.findClass id).runOn s =
    (Query.firstAnswer (·.contributed id.relative) (c.provider.packageFragments id.package)).runOn s := by
  rw [findClass, runOn_bind_ok (runOn_liveFragments s c id.package), Store.current_of_live hc.live]

theorem means_contributed (hs : s.Sound) (hc : s.Serves c) (package : QualName) (name : Name) :
    Means (·.contributed name) (Fragment.meaning c name) ClassDescriptor.anonymous s
      (c.provider.packageFragments package) :=
  fun _ hf _ ht => Fragment.contributed_answers (ht.sound hs) (ht.serves hc)
    (Provider.mem_packageFragments.1 hf).1 name

theorem findClass_answers (hs : s.Sound) (hc : s.Serves c) (id : ClassId) :
    Answers Store.Grows (c.findClass id) s (Option.map ClassDescriptor.anonymous) (c.found id) := by
  obtain ⟨hleads, hvalue⟩ := Answers.firstAnswer Store.Grows.refl
    (means_contributed hs hc id.package id.relative)
  rw [← runOn_findClass hc] at hleads hvalue
  exact ⟨hleads, hvalue⟩

theorem findClass_lasts (hs : s.Sound) (hc : s.Serves c) (id : ClassId) :
    (c.findClass id).Lasts s := by
  have hlasts := firstAnswer_lasts (means_contributed hs hc id.package id.relative)
    fun f hf t ht => Fragment.contributed_lasts (ht.sound hs) (ht.knows_iff.2 hc.knows)
      (Provider.mem_packageFragments.1 hf).1 id.relative
  intro d t h u hu
  have hgrows : s.Grows u := ((findClass_answers hs hc id).keeps.leads h).trans hu
  rw [runOn_findClass hc] at h
  rw [runOn_findClass (hgrows.serves hc)]
  exact hlasts d t h u hu

theorem resolveClass_answers (hs : s.Sound) (hc : s.Serves c) (id : ClassId) :
    Answers Store.Grows (c.resolveClass id) s ClassDescriptor.anonymous (c.resolved id) := by
  apply (findClass_answers hs hc id).bind
  intro found t ht _
  cases found with
  | some d => exact .pure' (.refl t) d
  | none =>
    have hmissing := (missingClass_answers (ht.sound hs) c id 0).mono fun _ => Store.Reads.toGrows
    apply hmissing.bindKnown
    intro m u _ hm
    refine ⟨.refl u, congrArg Except.ok ?_⟩
    exact congrArg MissingClass.descriptor hm

/-- What is resolved is what is found, or the placeholder that the store has for the class. -/
theorem resolveClass_ok (hs : s.Sound) (hc : s.Serves c) {d : ClassDescriptor}
    (h : (c.resolveClass id).runOn s = (.ok d, t)) :
    (c.findClass id).runOn s = (.ok (some d), t) ∨
      c.found id = .ok none ∧
        ∃ m, d = m.descriptor ∧ t.missing.get? (c.identity, id, 0) = some m := by
  obtain ⟨found, s', hfound, hnext⟩ := runOn_bind_eq_ok h
  obtain ⟨hmeans, hs'⟩ := (findClass_answers hs hc id).value_of_ok hfound
  cases found with
  | some d' =>
    obtain ⟨hd, rfl⟩ := Prod.mk.inj hnext
    exact .inl (by rw [hfound, Except.ok.inj hd])
  | none =>
    obtain ⟨m, t', hm, hpure⟩ := runOn_bind_eq_ok hnext
    obtain ⟨hd, rfl⟩ := Prod.mk.inj hpure
    have hregistered := registered_of_missingClass (hs'.sound hs) hm
    exact .inr ⟨hmeans, m, (Except.ok.inj hd).symm, hregistered.2.2⟩

theorem runOn_resolveClass_of_found {d : ClassDescriptor}
    (h : (c.findClass id).runOn s = (.ok (some d), t)) :
    (c.resolveClass id).runOn s = (.ok d, t) := by
  rw [resolveClass, runOn_bind_ok h]
  rfl

theorem runOn_resolveClass_of_missing (hs : s.Sound) (hc : s.Serves c) (hfound : c.found id = .ok none)
    {m : MissingClass} (hm : s.missing.get? (c.identity, id, 0) = some m) :
    ∃ t, (c.resolveClass id).runOn s = (.ok m.descriptor, t) := by
  have hanswers := findClass_answers hs hc id
  rw [hfound] at hanswers
  obtain ⟨found, t, hrun, hnone, ht⟩ := hanswers.runOn_eq
  obtain rfl := Option.map_eq_none_iff.1 hnone
  refine ⟨t, ?_⟩
  rw [resolveClass, runOn_bind_ok hrun]
  dsimp only
  rw [runOn_bind_ok (runOn_missingClass_of_registered (ht.missing _ m hm))]
  rfl

end Services

end SymbolAtlas
