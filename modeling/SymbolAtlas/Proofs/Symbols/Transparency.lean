import SymbolAtlas.Proofs.Symbols.Finding
import SymbolAtlas.Proofs.Symbols.Reading

/-!
# Lazy reading is transparent

The answers of a module depend on its library and on the options it was loaded with, and not on what
was asked before. An answer is compared as a value: without the identities of what was made for it.

* `Question.ask_answers`: an answer is what the library means;
* `Question.meaning_anonymous`: what a library means has nothing to do with identities;
* `Session.Reachable.transparent`: in a row of questions, each is answered as if it were the first.
-/

namespace SymbolAtlas

open Query

inductive Question
  | findClass (id : ClassId)
  | resolveClass (id : ClassId)
  | readClass (id : ClassId)
  | contributed (fragment : Nat) (name : Name)
  | classNames (fragment : Nat)
  | functionNames (fragment : Nat)
  | propertyNames (fragment : Nat)

inductive Reply
  | found (descriptor : Option ClassDescriptor)
  | names (names : List Name)
  /-- There is no such fragment, or it has no such names. -/
  | nothing

def Reply.anonymous : Reply → Reply
  | .found d => .found (d.map ClassDescriptor.anonymous)
  | .names all => .names all
  | .nothing => .nothing

def Fragment.askNames (ask : StoredFragment → Query (List Name)) : Fragment → Query Reply
  | .stored f => .names <$> ask f
  | _ => return .nothing

namespace Question

def askFragment (m : Module) (i : Nat) (ask : Fragment → Query Reply) : Query Reply := do
  match (← m.services).provider.fragments[i]? with
  | some f => ask f
  | none => return .nothing

def ask (m : Module) : Question → Query Reply
  | findClass id => .found <$> m.findClass id
  | resolveClass id => (.found ∘ some) <$> m.resolveClass id
  | readClass id => .found <$> (do (← m.services).readClass id)
  | contributed i name => askFragment m i fun f => .found <$> f.contributed name
  | classNames i => askFragment m i fun f => .names <$> f.classNames
  | functionNames i => askFragment m i (Fragment.askNames StoredFragment.functionNames)
  | propertyNames i => askFragment m i (Fragment.askNames StoredFragment.propertyNames)

def askAll (m : Module) : List Question → Store → List (Except LoadError Reply) × Store
  | [], s => ([], s)
  | q :: rest, s =>
    let (answer, t) := (q.ask m).runOn s
    let (answers, u) := askAll m rest t
    (answer :: answers, u)

end Question

/-! ## What is meant -/

def AliasFragment.namesOf (a : AliasFragment) (c : Services) : Except LoadError (List Name) :=
  return (← a.targets.mapM fun f => return (← f.reading c).classNames).flatten.eraseDups

def Fragment.namesOf (c : Services) : Fragment → Except LoadError (List Name)
  | .stored f => return (← f.reading c).classNames
  | .aliasing a => a.namesOf c
  | .exported e => return e.classNames

def Fragment.replyOf (c : Services) (shown : Payload → List Name) : Fragment → Except LoadError Reply
  | .stored f => .names <$> (do return shown (← f.reading c))
  | _ => return .nothing

namespace Question

def meaningAt (c : Services) (i : Nat) (means : Fragment → Except LoadError Reply) :
    Except LoadError Reply :=
  match c.provider.fragments[i]? with
  | some f => means f
  | none => return .nothing

/-- What the libraries say to a question. -/
def meaning (c : Services) : Question → Except LoadError Reply
  | findClass id => .found <$> c.found id
  | resolveClass id => (.found ∘ some) <$> c.resolved id
  | readClass id => .found <$> c.classOf id
  | contributed i name => meaningAt c i fun f => .found <$> f.meaning c name
  | classNames i => meaningAt c i fun f => .names <$> f.namesOf c
  | functionNames i => meaningAt c i (Fragment.replyOf c Payload.functionNames)
  | propertyNames i => meaningAt c i (Fragment.replyOf c Payload.propertyNames)

end Question

/-! ## Answers are what is meant -/

section

variable {s : Store} {c : Services} {m : Module}

theorem StoredFragment.names_answer {f : StoredFragment} (hs : s.Sound) (hf : s.Holds c f)
    (shown : Payload → List Name) :
    Answers Store.Grows (do return shown (← f.scope)) s id (do return shown (← f.reading c)) :=
  ((f.scope_answers hs hf).mono fun _ => Store.Reads.toGrows).bind fun p t _ _ =>
    .pure' (.refl t) (shown p)

theorem Fragment.classNames_answers (hs : s.Sound) (hc : s.Knows c) {f : Fragment}
    (hf : f ∈ c.provider.fragments) : Answers Store.Grows f.classNames s id (f.namesOf c) := by
  cases f with
  | stored f => exact f.names_answer hs ⟨hc, Provider.stored_mem.1 hf⟩ Payload.classNames
  | aliasing a =>
    have hall : Answers Store.Grows (a.targets.mapM StoredFragment.classNames) s (List.map id)
        (a.targets.mapM fun f => return (← f.reading c).classNames) :=
      Answers.mapM Store.Grows.refl fun f hm t ht => f.names_answer (ht.sound hs)
        (ht.holds ⟨hc, hs.targets c hc a hf f hm⟩) Payload.classNames
    rw [List.map_id_fun] at hall
    exact hall.bind fun names t _ _ => .pure' (.refl t) _
  | exported e => exact .pure' (.refl s) _

theorem Fragment.askNames_answers (hs : s.Sound) (hc : s.Knows c) {f : Fragment}
    (hf : f ∈ c.provider.fragments) (shown : Payload → List Name) :
    Answers Store.Grows (f.askNames fun f => do return shown (← f.scope)) s Reply.anonymous
      (f.replyOf c shown) := by
  cases f with
  | stored f => exact (f.names_answer hs ⟨hc, Provider.stored_mem.1 hf⟩ shown).map fun _ => rfl
  | aliasing a => exact .pure' (.refl s) _
  | exported e => exact .pure' (.refl s) _

theorem Question.askFragment_answers {ask : Fragment → Query Reply}
    {means : Fragment → Except LoadError Reply} (hm : m.services? s = some c) (i : Nat)
    (h : ∀ f ∈ c.provider.fragments, Answers Store.Grows (ask f) s Reply.anonymous (means f)) :
    Answers Store.Grows (askFragment m i ask) s Reply.anonymous (meaningAt c i means) := by
  apply Answers.bindOk (Module.runOn_services hm)
  unfold meaningAt
  cases hf : c.provider.fragments[i]? with
  | some f => exact h f (List.mem_of_getElem? hf)
  | none => exact .pure' (.refl s) _

/-- **A module answers what its library means.** -/
theorem Question.ask_answers (hs : s.Sound) (hm : m.services? s = some c) (hc : s.Serves c)
    (q : Question) : Answers Store.Grows (q.ask m) s Reply.anonymous (q.meaning c) := by
  cases q with
  | findClass id =>
    have hfind : Answers Store.Grows (m.findClass id) s (Option.map ClassDescriptor.anonymous)
      (c.found id) := .bindOk (Module.runOn_services hm) (Services.findClass_answers hs hc id)
    exact hfind.map fun _ => rfl
  | resolveClass id =>
    have hresolve : Answers Store.Grows (m.resolveClass id) s ClassDescriptor.anonymous
      (c.resolved id) := .bindOk (Module.runOn_services hm) (Services.resolveClass_answers hs hc id)
    exact hresolve.map fun _ => rfl
  | readClass id =>
    have hread : Answers Store.Grows (do (← m.services).readClass id) s
        (Option.map ClassDescriptor.anonymous) (c.classOf id) :=
      .bindOk (Module.runOn_services hm) (Services.readClass_answers hs hc.knows hc.live id)
    exact hread.map fun _ => rfl
  | contributed i name =>
    exact askFragment_answers hm i fun f hf =>
      (Fragment.contributed_answers hs hc hf name).map fun _ => rfl
  | classNames i =>
    exact askFragment_answers hm i fun f hf =>
      (Fragment.classNames_answers hs hc.knows hf).map fun _ => rfl
  | functionNames i =>
    exact askFragment_answers hm i fun f hf =>
      Fragment.askNames_answers hs hc.knows hf Payload.functionNames
  | propertyNames i =>
    exact askFragment_answers hm i fun f hf =>
      Fragment.askNames_answers hs hc.knows hf Payload.propertyNames

end

/-! ## Identities mean nothing -/

@[simp] theorem Fragment.package_anonymous (f : Fragment) : f.anonymous.package = f.package := by
  cases f <;> rfl

theorem Provider.packageFragments_anonymous (p : Provider) (package : QualName) :
    p.anonymous.packageFragments package = (p.packageFragments package).map Fragment.anonymous := by
  rw [packageFragments, packageFragments, fragments_anonymous, List.filter_map]
  simp [Function.comp_def]

namespace Services

theorem recordIn_anonymous (c : Services) (name : Name) (f : Fragment) :
    c.anonymous.recordIn name f.anonymous =
      (c.recordIn name f).map (Option.map fun found => (found.1.anonymous, found.2)) := by
  cases f with
  | stored f =>
    change (f.recordOf c name >>= _) = _
    rw [recordIn]
    rcases f.recordOf c name with e | _ | record <;> rfl
  | aliasing a => rfl
  | exported e => rfl

theorem recordOf_anonymous (c : Services) (id : ClassId) : c.anonymous.recordOf id =
    (c.recordOf id).map (Option.map fun found => (found.1.anonymous, found.2)) := by
  rw [recordOf, recordOf, ← findSomeM?_mapped]
  change (c.provider.anonymous.packageFragments id.package).findSomeM? _ = _
  rw [Provider.packageFragments_anonymous, findSomeM?_map]
  congr
  funext f
  exact recordIn_anonymous c id.relative f

theorem annotationOf_anonymous (c : Services) (record : AnnotationRecord) :
    c.anonymous.annotationOf record = c.annotationOf record := by
  rw [annotationOf, annotationOf, recordOf_anonymous]
  rcases c.recordOf (ClassId.parse record.className) with e | _ | found <;> rfl

theorem classOf_anonymous (c : Services) (id : ClassId) : c.anonymous.classOf id = c.classOf id := by
  have hannotations : c.anonymous.annotationOf = c.annotationOf := funext (annotationOf_anonymous c)
  rw [classOf, classOf, recordOf_anonymous]
  rcases c.recordOf id with e | _ | found
  · rfl
  · rfl
  · change some <$> c.anonymous.classFrom id found.2 = some <$> c.classFrom id found.2
    rw [classFrom, classFrom, hannotations]

end Services

theorem StoredFragment.meaning_anonymous (f : StoredFragment) (c : Services) (name : Name) :
    f.anonymous.meaning c.anonymous name = f.meaning c name := by
  rw [meaning, meaning]
  change (f.hasRecord c name >>= fun declares =>
    if declares then c.anonymous.classOf ⟨f.package, name⟩ else return none) = _
  rw [Services.classOf_anonymous]

theorem AliasFragment.go_anonymous (targets : List StoredFragment) (c : Services) (name : Name) :
    meaning.go c.anonymous name (targets.map StoredFragment.anonymous) = meaning.go c name targets := by
  induction targets with
  | nil => rfl
  | cons f rest ih =>
    rw [List.map_cons, meaning.go, meaning.go, ih, StoredFragment.meaning_anonymous]
    rfl

theorem Fragment.meaning_anonymous (c : Services) (name : Name) (f : Fragment) :
    f.anonymous.meaning c.anonymous name = f.meaning c name := by
  cases f with
  | stored f => exact f.meaning_anonymous c name
  | aliasing a => exact AliasFragment.go_anonymous a.targets c name
  | exported e => rfl

theorem Services.found_anonymous (c : Services) (id : ClassId) :
    c.anonymous.found id = c.found id := by
  rw [found, found]
  change (c.provider.anonymous.packageFragments id.package).findSomeM? _ = _
  rw [Provider.packageFragments_anonymous, findSomeM?_map]
  congr
  funext f
  exact f.meaning_anonymous c id.relative

theorem Fragment.namesOf_anonymous (c : Services) (f : Fragment) :
    f.anonymous.namesOf c.anonymous = f.namesOf c := by
  cases f with
  | stored f => rfl
  | aliasing a =>
    change AliasFragment.namesOf _ c.anonymous = a.namesOf c
    rw [AliasFragment.namesOf, AliasFragment.namesOf]
    change (a.targets.map StoredFragment.anonymous).mapM _ >>= _ = _
    rw [List.mapM_map]
    rfl
  | exported e => rfl

theorem Fragment.replyOf_anonymous (c : Services) (shown : Payload → List Name) (f : Fragment) :
    f.anonymous.replyOf c.anonymous shown = f.replyOf c shown := by
  cases f <;> rfl

namespace Question

theorem meaningAt_anonymous {c : Services} {i : Nat} {means means' : Fragment → Except LoadError Reply}
    (h : ∀ f, means' f.anonymous = means f) :
    meaningAt c.anonymous i means' = meaningAt c i means := by
  have hfragments : c.anonymous.provider.fragments[i]? = c.provider.fragments[i]?.map Fragment.anonymous := by
    change c.provider.anonymous.fragments[i]? = _
    rw [Provider.fragments_anonymous, List.getElem?_map]
  rw [meaningAt, meaningAt, hfragments]
  cases c.provider.fragments[i]? with
  | none => rfl
  | some f => exact h f

/-- What libraries say has nothing to do with identities. -/
theorem meaning_anonymous (c : Services) (q : Question) : q.meaning c.anonymous = q.meaning c := by
  cases q with
  | findClass id => rw [meaning, meaning, Services.found_anonymous]
  | resolveClass id =>
    rw [meaning, meaning, Services.resolved, Services.resolved, Services.found_anonymous]
  | readClass id => rw [meaning, meaning, Services.classOf_anonymous]
  | contributed i name =>
    exact meaningAt_anonymous fun f => congrArg (Reply.found <$> ·) (f.meaning_anonymous c name)
  | classNames i =>
    exact meaningAt_anonymous fun f => congrArg (Reply.names <$> ·) (f.namesOf_anonymous c)
  | functionNames i => exact meaningAt_anonymous fun f => f.replyOf_anonymous c _
  | propertyNames i => exact meaningAt_anonymous fun f => f.replyOf_anonymous c _

end Question

/-! ## Rows of questions -/

namespace Question

variable {s : Store} {c : Services} {m : Module}

/-- In a row of questions, each is answered with what is meant, whatever came before. -/
theorem askAll_answers (hs : s.Sound) (hm : m.services? s = some c) (hc : s.Serves c)
    (questions : List Question) :
    (askAll m questions s).1.map (Except.map Reply.anonymous) = questions.map (meaning c) := by
  induction questions generalizing s with
  | nil => rfl
  | cons q rest ih =>
    obtain ⟨hgrows, hvalue⟩ := q.ask_answers hs hm hc
    have hrest := ih (hgrows.sound hs) ((hgrows.services? m).trans hm)
      (hgrows.serves hc)
    simp only [askAll, List.map_cons, hvalue, hrest]

end Question

namespace Session

variable {S S' : Session} {m : Module} {c : Services} {t : Store} {library : Library}
  {options : LoadOptions}

/-- A module serves from when it is loaded. -/
theorem Sound.serves_loaded (h : S.Sound) (ht : S.store.Loads m c t) : t.Serves c :=
  have hlive := (h.hold_loads ht).live m (mem_hold.2 (.inr rfl)) c ht.services?_self
  ⟨Module.knows_of_services? ht.services?_self, hlive⟩

/-- **Lazy reading is transparent.** Take a module that was loaded in any session, and ask it one
question after the other. Each is answered, or fails, as it would be if it were the first question to
the module that the library is loaded into in any other session. -/
theorem Reachable.transparent (h : S.Reachable) (h' : S'.Reachable)
    (hload : (Module.load library options).runOn S.store = (.ok m, t)) (questions : List Question) :
    ∃ m' t', (Module.load library options).runOn S'.store = (.ok m', t') ∧
      (Question.askAll m questions t).1.map (Except.map Reply.anonymous) =
        questions.map fun q => ((q.ask m').runOn t').1.map Reply.anonymous := by
  rcases Module.load_cases h.sound.store library options with
    ⟨e, u, -, hrun, -⟩ | ⟨k, c, u, hc, hrun, hloads⟩
  · cases (Prod.mk.inj (hrun.symm.trans hload)).1
  obtain ⟨hm, rfl⟩ := Prod.mk.inj (hrun.symm.trans hload)
  obtain rfl := Except.ok.inj hm
  rcases Module.load_cases h'.sound.store library options with
    ⟨e, u', hc', -, -⟩ | ⟨m', c', t', hc', hrun', hloads'⟩
  · cases hc.symm.trans hc'
  -- Both modules have the same services, identities aside.
  have hsame : c.anonymous = c'.anonymous := Except.ok.inj (hc.symm.trans hc')
  refine ⟨m', t', hrun', ?_⟩
  rw [Question.askAll_answers (hloads.sound h.sound.store) hloads.services?_self
    (h.sound.serves_loaded hloads)]
  apply List.map_congr_left
  intro q _
  have hfirst := q.ask_answers (hloads'.sound h'.sound.store) hloads'.services?_self
    (h'.sound.serves_loaded hloads')
  calc q.meaning c
      = q.meaning c.anonymous := (q.meaning_anonymous c).symm
    _ = q.meaning c'.anonymous := by rw [hsame]
    _ = q.meaning c' := q.meaning_anonymous c'
    _ = ((q.ask m').runOn t').1.map Reply.anonymous := hfirst.value.symm

/-- Questions that are answered, that fail, and that come again after they failed. -/
def mixedQuestions : List Question :=
  [.readClass (.parse "later/B"), .findClass (.parse "app/A"), .contributed 2 ⟨"C"⟩,
    .findClass (.parse "app/None"), .resolveClass (.parse "app/None"), .classNames 0,
    .findClass (.parse "app/None"), .readClass (.parse "later/B"), .functionNames 2]

/-- The questions to a module that is loaded into an empty session are answered as they are first
asked of a module that is loaded after others were. -/
theorem transparent_mixed : ∃ m t,
    (Module.load mixed { reports := true }).runOn ({} : Session).store = (.ok m, t) ∧
    ∃ m' t', (Module.load mixed { reports := true }).runOn mixedSession.store = (.ok m', t') ∧
      (Question.askAll m mixedQuestions t).1.map (Except.map Reply.anonymous) =
        mixedQuestions.map fun q => ((q.ask m').runOn t').1.map Reply.anonymous := by
  have hok : ((Module.load mixed { reports := true }).runOn ({} : Session).store).1.isOk = true := by
    decide +kernel
  rcases hload : (Module.load mixed { reports := true }).runOn ({} : Session).store with ⟨e | m, t⟩
  · rw [hload] at hok
    cases hok
  · exact ⟨m, t, rfl, Reachable.transparent .refl reachable_mixedSession hload mixedQuestions⟩

end Session

end SymbolAtlas
