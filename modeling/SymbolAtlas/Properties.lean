namespace SymbolAtlas

/-- Text values under text keys, sorted by key. -/
structure Properties where
  entries : List (String × String)
  sorted : entries.Pairwise (fun a b => a.1 < b.1)

namespace Properties

instance : DecidableEq Properties := fun a b =>
  if h : a.entries = b.entries then
    .isTrue (by cases a; cases b; simpa using h)
  else .isFalse (by rintro rfl; exact h rfl)

def empty : Properties :=
  ⟨[], .nil⟩

instance : Inhabited Properties := ⟨empty⟩

/-- `entries` with `value` under `key`, in place of an older value. -/
def put (key value : String) : List (String × String) → List (String × String)
  | [] => [(key, value)]
  | (k, v) :: rest =>
    if key < k then (key, value) :: (k, v) :: rest
    else if key = k then (key, value) :: rest
    else (k, v) :: put key value rest

theorem lt_of_not_lt_of_ne {a b : String} (h : ¬ a < b) (hne : a ≠ b) : b < a := by
  apply Classical.byContradiction
  intro hba
  exact hne (String.le_antisymm (String.not_lt.1 hba) (String.not_lt.1 h))

theorem mem_put {key value : String} {entries : List (String × String)} {e : String × String}
    (h : e ∈ put key value entries) : e = (key, value) ∨ e ∈ entries := by
  induction entries with
  | nil => simpa [put] using h
  | cons a rest ih =>
    obtain ⟨k, v⟩ := a
    unfold put at h
    split at h
    · simpa using h
    · split at h
      · rcases List.mem_cons.1 h with h | h
        · exact .inl h
        · exact .inr (List.mem_cons_of_mem _ h)
      · rcases List.mem_cons.1 h with h | h
        · exact .inr (h ▸ List.mem_cons_self)
        · exact (ih h).imp id (List.mem_cons_of_mem _)

theorem sorted_put {key value : String} {entries : List (String × String)}
    (h : entries.Pairwise (fun a b => a.1 < b.1)) :
    (put key value entries).Pairwise (fun a b => a.1 < b.1) := by
  induction entries with
  | nil => simp [put]
  | cons a rest ih =>
    obtain ⟨k, v⟩ := a
    obtain ⟨hk, hrest⟩ := List.pairwise_cons.1 h
    unfold put
    split
    · rename_i hlt
      refine List.pairwise_cons.2 ⟨?_, h⟩
      intro e he
      rcases List.mem_cons.1 he with rfl | he
      · exact hlt
      · exact String.lt_trans hlt (hk e he)
    · split
      · rename_i heq
        exact List.pairwise_cons.2 ⟨fun e he => heq ▸ hk e he, hrest⟩
      · rename_i hlt hne
        refine List.pairwise_cons.2 ⟨?_, ih hrest⟩
        intro e he
        rcases mem_put he with rfl | he
        · exact lt_of_not_lt_of_ne hlt hne
        · exact hk e he

/-- The table with `value` under `key`. -/
def set (t : Properties) (key value : String) : Properties :=
  ⟨put key value t.entries, sorted_put t.sorted⟩

def get? (t : Properties) (key : String) : Option String :=
  t.entries.lookup key

theorem lookup_cons_ite (k : String) (e : String × String) (rest : List (String × String)) :
    (e :: rest).lookup k = if k = e.1 then some e.2 else rest.lookup k := by
  obtain ⟨key, value⟩ := e
  by_cases h : k = key
  · simp [h]
  · have : (k == key) = false := by simpa using h
    simp [List.lookup_cons, h, this]

theorem lookup_put (key value k : String) (entries : List (String × String)) :
    (put key value entries).lookup k = if k = key then some value else entries.lookup k := by
  induction entries with
  | nil => simp [put]
  | cons a rest ih =>
    obtain ⟨k', v'⟩ := a
    unfold put
    split
    · simp [lookup_cons_ite]
    · split
      · rename_i heq
        subst heq
        by_cases h : k = key <;> simp [lookup_cons_ite, h]
      · rename_i hlt hne
        rw [lookup_cons_ite, lookup_cons_ite, ih]
        by_cases h : k = k'
        · subst h
          simp [Ne.symm hne]
        · simp [h]

@[simp] theorem get?_set_self (t : Properties) (key value : String) :
    (t.set key value).get? key = some value := by
  simp [get?, set, lookup_put]

theorem get?_set_of_ne (t : Properties) {key k : String} (value : String) (h : k ≠ key) :
    (t.set key value).get? k = t.get? k := by
  simp [get?, set, lookup_put, h]

/-- The last of several values under one key is the one that stays. -/
def ofList (entries : List (String × String)) : Properties :=
  entries.foldl (fun t e => t.set e.1 e.2) empty

theorem lookup_eq_none_of_lt {key : String} {entries : List (String × String)}
    (h : ∀ e ∈ entries, key < e.1) : entries.lookup key = none := by
  induction entries with
  | nil => rfl
  | cons a rest ih =>
    have ha : key < a.1 := h a List.mem_cons_self
    have hne : key ≠ a.1 := fun he => String.lt_irrefl _ (he ▸ ha : key < key)
    rw [lookup_cons_ite, if_neg hne]
    exact ih fun e he => h e (List.mem_cons_of_mem _ he)

theorem entries_ext {a b : List (String × String)} (ha : a.Pairwise (fun x y => x.1 < y.1))
    (hb : b.Pairwise (fun x y => x.1 < y.1)) (h : ∀ k, a.lookup k = b.lookup k) : a = b := by
  induction a generalizing b with
  | nil =>
    cases b with
    | nil => rfl
    | cons y ys => simpa [lookup_cons_ite] using h y.1
  | cons x xs ih =>
    cases b with
    | nil => simpa [lookup_cons_ite] using h x.1
    | cons y ys =>
      obtain ⟨hx, hxs⟩ := List.pairwise_cons.1 ha
      obtain ⟨hy, hys⟩ := List.pairwise_cons.1 hb
      have hkey : x.1 = y.1 := by
        apply Classical.byContradiction
        intro hne
        by_cases hlt : x.1 < y.1
        · have hnone : (y :: ys).lookup x.1 = none := lookup_eq_none_of_lt fun e he => by
            rcases List.mem_cons.1 he with rfl | he
            · exact hlt
            · exact String.lt_trans hlt (hy e he)
          have := h x.1
          rw [hnone] at this
          simp [lookup_cons_ite] at this
        · have hgt := lt_of_not_lt_of_ne hlt hne
          have hnone : (x :: xs).lookup y.1 = none := lookup_eq_none_of_lt fun e he => by
            rcases List.mem_cons.1 he with rfl | he
            · exact hgt
            · exact String.lt_trans hgt (hx e he)
          have := h y.1
          rw [hnone] at this
          simp [lookup_cons_ite] at this
      have hval : x.2 = y.2 := by
        have := h x.1
        simpa [lookup_cons_ite, hkey] using this
      have hxy : x = y := Prod.ext hkey hval
      subst hxy
      congr 1
      refine ih hxs hys fun k => ?_
      by_cases hk : k = x.1
      · subst hk
        rw [lookup_eq_none_of_lt hx, lookup_eq_none_of_lt hy]
      · have := h k
        simpa [lookup_cons_ite, hk] using this

theorem ext_get? {a b : Properties} (h : ∀ k, a.get? k = b.get? k) : a = b := by
  obtain ⟨ea, ha⟩ := a
  obtain ⟨eb, hb⟩ := b
  have := entries_ext ha hb h
  subst this
  rfl

end Properties

end SymbolAtlas
