import SymbolAtlas.Proofs.Symbols.Contribution

namespace SymbolAtlas.Query

variable {ι α β : Type} {ask : ι → Query (Option α)} {means : ι → Except LoadError (Option β)}
  {shown : α → β} {s u : Store} {items : List ι}

theorem firstAnswer_singleton (ask : ι → Query (Option α)) (i : ι) : firstAnswer ask [i] = ask i := by
  refine Eq.trans ?_ (bind_pure (ask i))
  rw [firstAnswer]
  congr
  funext answer
  cases answer <;> rfl

theorem firstAnswer_map {κ : Type} (ask : ι → Query (Option α)) (g : κ → ι) (items : List κ) :
    firstAnswer ask (items.map g) = firstAnswer (fun k => ask (g k)) items := by
  induction items with
  | nil => rfl
  | cons k rest ih => rw [List.map_cons, firstAnswer, firstAnswer, ih]

/-- A search goes on in the items that follow when it finds nothing. -/
theorem firstAnswer_append (ask : ι → Query (Option α)) (items rest : List ι) :
    firstAnswer ask (items ++ rest) = firstAnswer ask items >>= fun answer => match answer with
      | some a => pure (some a)
      | none => firstAnswer ask rest := by
  induction items with
  | nil => rfl
  | cons i items ih =>
    rw [List.cons_append, firstAnswer, firstAnswer, bind_assoc]
    congr
    funext answer
    cases answer with
    | some a => rfl
    | none => exact ih

/-- The items answer what they mean, whatever was asked before. -/
def Means (ask : ι → Query (Option α)) (means : ι → Except LoadError (Option β)) (shown : α → β)
    (s : Store) (items : List ι) : Prop :=
  ∀ i ∈ items, ∀ t, s.Grows t → Answers Store.Grows (ask i) t (Option.map shown) (means i)

theorem Means.grows {t : Store} (h : Means ask means shown s items) (ht : s.Grows t) :
    Means ask means shown t items :=
  fun i hi u hu => h i hi u (ht.trans hu)

theorem Means.mono {items' : List ι} (h : Means ask means shown s items) (hsub : items' ⊆ items) :
    Means ask means shown s items' :=
  fun i hi => h i (hsub hi)

theorem firstAnswer_ok (hask : Means ask means shown s items)
    (hok : ∀ i ∈ items, ∃ v, means i = .ok v) :
    ∃ r t, (firstAnswer ask items).runOn s = (.ok r, t) := by
  induction items generalizing s with
  | nil => exact ⟨none, s, rfl⟩
  | cons i rest ih =>
    obtain ⟨v, hv⟩ := hok i List.mem_cons_self
    have hi := hask i List.mem_cons_self s (.refl s)
    rw [hv] at hi
    obtain ⟨r, t, hrun, -, ht⟩ := hi.runOn_eq
    rw [firstAnswer, runOn_bind_ok hrun]
    cases r with
    | some a => exact ⟨some a, t, rfl⟩
    | none =>
      exact ih ((hask.mono (List.subset_cons_self i rest)).grows ht)
        fun j hj => hok j (List.mem_cons_of_mem i hj)

theorem firstAnswer_none (hask : Means ask means shown s items)
    (h : (firstAnswer ask items).runOn s = (.ok none, u)) : ∀ i ∈ items, means i = .ok none := by
  induction items generalizing s with
  | nil => exact fun i hi => by cases hi
  | cons i rest ih =>
    obtain ⟨r, t, hrun, hrest⟩ := runOn_bind_eq_ok h
    obtain ⟨hmeans, ht⟩ := (hask i List.mem_cons_self s (.refl s)).value_of_ok hrun
    cases r with
    | some a => cases (Prod.mk.inj hrest).1
    | none =>
      intro j hj
      rcases List.mem_cons.1 hj with rfl | hj
      · exact hmeans
      · exact ih ((hask.mono (List.subset_cons_self i rest)).grows ht) hrest j hj

theorem firstAnswer_some {a : α} (hask : Means ask means shown s items)
    (h : (firstAnswer ask items).runOn s = (.ok (some a), u)) :
    ∃ before i after t, items = before ++ i :: after ∧ (∀ j ∈ before, means j = .ok none) ∧
      means i = .ok (some (shown a)) ∧ s.Grows t ∧ (ask i).runOn t = (.ok (some a), u) := by
  induction items generalizing s with
  | nil => cases (Prod.mk.inj h).1
  | cons i rest ih =>
    obtain ⟨r, t, hrun, hrest⟩ := runOn_bind_eq_ok h
    obtain ⟨hmeans, ht⟩ := (hask i List.mem_cons_self s (.refl s)).value_of_ok hrun
    cases r with
    | some b =>
      obtain ⟨hb, rfl⟩ := Prod.mk.inj hrest
      obtain rfl := Option.some.inj (Except.ok.inj hb)
      exact ⟨[], i, rest, s, rfl, nofun, hmeans, .refl s, hrun⟩
    | none =>
      obtain ⟨before, k, after, t', rfl, hbefore, hk, ht', hrun'⟩ :=
        ih ((hask.mono (List.subset_cons_self i rest)).grows ht) hrest
      refine ⟨i :: before, k, after, t', rfl, ?_, hk, ht.trans ht', hrun'⟩
      intro j hj
      rcases List.mem_cons.1 hj with rfl | hj
      · exact hmeans
      · exact hbefore j hj

theorem firstAnswer_skip {before : List ι} (rest : List ι)
    (hask : Means ask means shown s before)
    (h : ∀ j ∈ before, means j = .ok none) :
    ∃ t, s.Grows t ∧
      (firstAnswer ask (before ++ rest)).runOn s = (firstAnswer ask rest).runOn t := by
  induction before generalizing s with
  | nil => exact ⟨s, .refl s, rfl⟩
  | cons j before ih =>
    have hj := hask j List.mem_cons_self s (.refl s)
    rw [h j List.mem_cons_self] at hj
    obtain ⟨r, t, hrun, hr, ht⟩ := hj.runOn_eq
    obtain rfl := Option.map_eq_none_iff.1 hr
    obtain ⟨t', ht', hskip⟩ := ih ((hask.mono (List.subset_cons_self j before)).grows ht)
      fun k hk => h k (List.mem_cons_of_mem j hk)
    refine ⟨t', ht.trans ht', ?_⟩
    rw [List.cons_append, firstAnswer, runOn_bind_ok hrun]
    exact hskip

/-- Where nothing is meant before an item that gives its answer again, the search gives it. -/
theorem firstAnswer_again {before after : List ι} {i : ι} {a : α}
    (hask : Means ask means shown s before) (h : ∀ j ∈ before, means j = .ok none)
    (hi : ∀ t, s.Grows t → ∃ v, (ask i).runOn t = (.ok (some a), v)) :
    ∃ v, (firstAnswer ask (before ++ i :: after)).runOn s = (.ok (some a), v) := by
  obtain ⟨t, ht, hskip⟩ := firstAnswer_skip (i :: after) hask h
  obtain ⟨v, hv⟩ := hi t ht
  refine ⟨v, ?_⟩
  rw [hskip, firstAnswer, runOn_bind_ok hv]
  rfl

theorem firstAnswer_lasts (hask : Means ask means shown s items)
    (hlasts : ∀ i ∈ items, ∀ t, s.Grows t → (ask i).Lasts t) : (firstAnswer ask items).Lasts s := by
  intro a u h v hv
  obtain ⟨before, i, after, t, rfl, hbefore, -, ht, hi⟩ := firstAnswer_some hask h
  have hgrows : s.Grows v := by
    have hkeeps : Keeps Store.Grows (firstAnswer ask (before ++ i :: after)) s :=
      Keeps.firstAnswer Store.Grows.refl fun j hj t ht => (hask j hj t ht).keeps
    exact (hkeeps.leads h).trans hv
  apply firstAnswer_again ((hask.mono (List.subset_append_left _ _)).grows hgrows) hbefore
  intro w hw
  exact hlasts i (by simp) t ht a u hi w (hv.trans hw)

theorem Lasts.map {α β : Type} {q : Query (Option α)} {s : Store} (h : q.Lasts s) (f : α → β) :
    (Option.map f <$> q).Lasts s := by
  intro b t hb u hu
  rw [map_eq_pure_bind] at hb ⊢
  obtain ⟨a, t', hq, hpure⟩ := runOn_bind_eq_ok hb
  obtain ⟨hmap, rfl⟩ := Prod.mk.inj hpure
  obtain ⟨a, rfl, rfl⟩ := Option.map_eq_some_iff.1 (Except.ok.inj hmap)
  obtain ⟨v, hv⟩ := h a t' hq u hu
  rw [runOn_bind_ok hv]
  exact ⟨v, rfl⟩

end SymbolAtlas.Query
