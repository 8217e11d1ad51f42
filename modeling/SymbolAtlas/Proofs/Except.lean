namespace SymbolAtlas

theorem except_bind_eq_ok {ε α β : Type} {x : Except ε α} {f : α → Except ε β} {b : β} :
    (x >>= f) = .ok b ↔ ∃ a, x = .ok a ∧ f a = .ok b := by
  cases x <;> simp [bind, Except.bind]

theorem except_bind_eq_error {ε α β : Type} {x : Except ε α} {f : α → Except ε β} {e : ε} :
    (x >>= f) = .error e ↔ x = .error e ∨ ∃ a, x = .ok a ∧ f a = .error e := by
  cases x <;> simp [bind, Except.bind]

theorem except_map_eq_ok {ε α β : Type} {x : Except ε α} {f : α → β} {b : β} :
    x.map f = .ok b ↔ ∃ a, x = .ok a ∧ f a = b := by
  cases x <;> simp [Except.map]

theorem except_map_eq_error {ε α β : Type} {x : Except ε α} {f : α → β} {e : ε} :
    x.map f = .error e ↔ x = .error e := by
  cases x <;> simp [Except.map]

theorem except_mapError_eq_ok {ε ε' α : Type} {x : Except ε α} {f : ε → ε'} {a : α} :
    x.mapError f = .ok a ↔ x = .ok a := by
  cases x with
  | error e => exact ⟨nofun, nofun⟩
  | ok b =>
    change Except.ok b = .ok a ↔ _
    rw [Except.ok.injEq, Except.ok.injEq]

theorem except_mapError_eq_error {ε ε' α : Type} {x : Except ε α} {f : ε → ε'} {e : ε'} :
    x.mapError f = .error e ↔ ∃ d, x = .error d ∧ f d = e := by
  cases x with
  | error d =>
    change Except.error (f d) = .error e ↔ _
    simp
  | ok a =>
    change Except.ok a = .error e ↔ _
    simp

/-! ## Traversals -/

section

variable {ε α β γ : Type} {f : α → Except ε β} {items : List α} {made : List β}

/-- What a traversal makes of the items keeps what it has of each. -/
theorem map_mapM (h : items.mapM f = .ok made) {shown : β → γ} {kept : α → γ}
    (hkept : ∀ a b, f a = .ok b → shown b = kept a) : made.map shown = items.map kept := by
  induction items generalizing made with
  | nil =>
    obtain rfl := Except.ok.inj h
    rfl
  | cons a rest ih =>
    rw [List.mapM_cons] at h
    obtain ⟨b, hb, h⟩ := except_bind_eq_ok.1 h
    obtain ⟨others, hothers, h⟩ := except_bind_eq_ok.1 h
    obtain rfl := Except.ok.inj h
    rw [List.map_cons, List.map_cons, hkept a b hb, ih hothers]

/-- A traversal makes what it makes of some item. -/
theorem mem_mapM (h : items.mapM f = .ok made) {b : β} : b ∈ made ↔ ∃ a ∈ items, f a = .ok b := by
  have hmade : made.map Except.ok = items.map f := map_mapM h fun a b hb => hb.symm
  have hok : (Except.ok b : Except ε β) ∈ made.map Except.ok ↔ b ∈ made := by simp
  rw [← hok, hmade, List.mem_map]

end

/-! ## Searches -/

/-- A search in which nothing fails finds something exactly when some item has something. -/
theorem findSomeM?_ok {ε α β : Type} {f : α → Except ε (Option β)} {items : List α}
    (h : ∀ a ∈ items, ∃ v, f a = .ok v) :
    ∃ v, items.findSomeM? f = .ok v ∧ (v.isSome ↔ ∃ a ∈ items, ∃ b, f a = .ok (some b)) := by
  induction items with
  | nil => exact ⟨none, rfl, by simp⟩
  | cons a rest ih =>
    obtain ⟨v, hv⟩ := h a List.mem_cons_self
    rw [List.findSomeM?_cons, hv]
    cases v with
    | some b => exact ⟨some b, rfl, by simpa using .inl ⟨b, hv⟩⟩
    | none =>
      obtain ⟨w, hw, hiff⟩ := ih fun b hb => h b (List.mem_cons_of_mem a hb)
      refine ⟨w, hw, hiff.trans ?_⟩
      simp [hv]

/-- What is found is something that an item has, even if items after it fail. -/
theorem findSomeM?_some {ε α β : Type} {f : α → Except ε (Option β)} {items : List α} {v : Option β}
    (h : items.findSomeM? f = .ok v) {a : α} (ha : a ∈ items) {b : β} (hb : f a = .ok (some b)) :
    v.isSome := by
  induction items with
  | nil => cases ha
  | cons k rest ih =>
    rw [List.findSomeM?_cons] at h
    obtain ⟨w, hw, h⟩ := except_bind_eq_ok.1 h
    cases w with
    | some w => exact Except.ok.inj h ▸ rfl
    | none =>
      rcases List.mem_cons.1 ha with rfl | ha
      · cases hw.symm.trans hb
      · exact ih h ha

theorem mem_of_findSomeM? {ε α β : Type} {f : α → Except ε (Option β)} {items : List α} {b : β}
    (h : items.findSomeM? f = .ok (some b)) : ∃ a ∈ items, f a = .ok (some b) := by
  induction items with
  | nil => cases h
  | cons a rest ih =>
    rw [List.findSomeM?_cons] at h
    obtain ⟨v, hv, h⟩ := except_bind_eq_ok.1 h
    cases v with
    | some v =>
      obtain rfl := Option.some.inj (Except.ok.inj h)
      exact ⟨a, List.mem_cons_self, hv⟩
    | none =>
      obtain ⟨k, hk, hfk⟩ := ih h
      exact ⟨k, List.mem_cons_of_mem a hk, hfk⟩

theorem findSomeM?_map {ε α β γ : Type} (g : γ → α) (f : α → Except ε (Option β)) (items : List γ) :
    (items.map g).findSomeM? f = items.findSomeM? (f ∘ g) := by
  induction items with
  | nil => rfl
  | cons a rest ih => rw [List.map_cons, List.findSomeM?_cons, List.findSomeM?_cons, ih]; rfl

theorem findSomeM?_mapped {ε α β γ : Type} (g : β → γ) (f : α → Except ε (Option β)) (items : List α) :
    items.findSomeM? (fun a => (f a).map (Option.map g)) =
      (items.findSomeM? f).map (Option.map g) := by
  induction items with
  | nil => rfl
  | cons a rest ih =>
    rw [List.findSomeM?_cons, List.findSomeM?_cons, ih]
    rcases f a with e | _ | b <;> rfl

/-- A search goes on in the items that follow when it finds nothing. -/
theorem findSomeM?_append {ε α β : Type} (f : α → Except ε (Option β)) (xs ys : List α) :
    (xs ++ ys).findSomeM? f = xs.findSomeM? f >>= fun v => match v with
      | some b => pure (some b)
      | none => ys.findSomeM? f := by
  induction xs with
  | nil => rfl
  | cons a rest ih =>
    rw [List.cons_append, List.findSomeM?_cons, List.findSomeM?_cons, bind_assoc]
    congr
    funext v
    cases v with
    | some b => rfl
    | none => exact ih

/-- A search among items that are all alike. -/
theorem findSomeM?_const {ε α β : Type} {f : α → Except ε (Option β)} {items : List α}
    {v : Except ε (Option β)} (hne : items ≠ []) (h : ∀ a ∈ items, f a = v) :
    items.findSomeM? f = v := by
  induction items with
  | nil => exact absurd rfl hne
  | cons a rest ih =>
    rw [List.findSomeM?_cons, h a List.mem_cons_self]
    rcases v with e | _ | b
    · rfl
    · by_cases hrest : rest = []
      · rw [hrest]
        rfl
      · exact ih hrest fun b hb => h b (List.mem_cons_of_mem a hb)
    · rfl

/-- A search among items that all have nothing. -/
theorem findSomeM?_none {ε α β : Type} {f : α → Except ε (Option β)} {items : List α}
    (h : ∀ a ∈ items, f a = .ok none) : items.findSomeM? f = .ok none := by
  by_cases hne : items = []
  · rw [hne]
    rfl
  · exact findSomeM?_const hne h

end SymbolAtlas
