namespace SymbolAtlas

theorem mem_of_lookup {κ α : Type} [BEq κ] [LawfulBEq κ] {entries : List (κ × α)} {key : κ} {value : α}
    (h : entries.lookup key = some value) : (key, value) ∈ entries := by
  obtain ⟨before, after, heq, -⟩ := List.lookup_eq_some_iff.1 h
  simp [heq]

/-- When every key stands once, the look-up of a key finds what stands there. -/
theorem lookup_of_mem {κ α : Type} [BEq κ] [LawfulBEq κ] {entries : List (κ × α)}
    (h : (entries.map (·.1)).Nodup) {key : κ} {value : α} (hmem : (key, value) ∈ entries) :
    entries.lookup key = some value := by
  induction entries with
  | nil => cases hmem
  | cons e rest ih =>
    obtain ⟨hnew, hrest⟩ := List.nodup_cons.1 h
    rcases List.mem_cons.1 hmem with rfl | hmem
    · exact List.lookup_cons_self
    · have hne : (key == e.1) = false := by
        rw [beq_eq_false_iff_ne]
        rintro rfl
        exact hnew (List.mem_map.2 ⟨_, hmem, rfl⟩)
      rw [List.lookup_cons, hne]
      exact ih hrest hmem

/-- Values under keys. -/
structure Table (κ α : Type) where
  entries : List (κ × α) := []
  deriving Inhabited

namespace Table

variable {κ α : Type} [DecidableEq κ]

def get? (t : Table κ α) (key : κ) : Option α :=
  t.entries.lookup key

def erase (t : Table κ α) (key : κ) : Table κ α :=
  ⟨t.entries.filter (·.1 ≠ key)⟩

/-- The table with `value` under `key`, in place of an older value. -/
def set (t : Table κ α) (key : κ) (value : α) : Table κ α :=
  ⟨(key, value) :: (t.erase key).entries⟩

/-- How many keys belong to the class `p`. -/
def count (t : Table κ α) (p : κ → Bool) : Nat :=
  t.entries.countP fun e => p e.1

@[simp] theorem get?_empty (key : κ) : (⟨[]⟩ : Table κ α).get? key = none :=
  rfl

theorem get?_erase_of_ne (t : Table κ α) {key k : κ} (h : k ≠ key) :
    (t.erase key).get? k = t.get? k := by
  obtain ⟨entries⟩ := t
  simp only [get?, erase]
  induction entries with
  | nil => rfl
  | cons e rest ih =>
    obtain ⟨p, x⟩ := e
    by_cases hp : p = key
    · subst hp
      have hk : (k == p) = false := by simpa using h
      rw [List.filter_cons_of_neg (by simp), ih]
      simp only [List.lookup_cons, hk]
    · rw [List.filter_cons_of_pos (by simpa using hp)]
      simp only [List.lookup_cons, ih]

theorem get?_set (t : Table κ α) (key k : κ) (value : α) :
    (t.set key value).get? k = if k = key then some value else t.get? k := by
  by_cases h : k = key
  · subst h
    simp [get?, set]
  · rw [if_neg h, ← get?_erase_of_ne t h]
    have : (k == key) = false := by simpa using h
    simp [get?, set, List.lookup_cons, this]

/-- Every key stands once. -/
def Distinct (t : Table κ α) : Prop :=
  (t.entries.map (·.1)).Nodup

theorem Distinct.set {t : Table κ α} (h : t.Distinct) (key : κ) (value : α) :
    (t.set key value).Distinct := by
  simp only [Distinct, Table.set, erase, List.map_cons, List.nodup_cons]
  refine ⟨by simp, ?_⟩
  exact List.Nodup.sublist (List.Sublist.map _ List.filter_sublist) h

theorem mem_entries_of_get? {t : Table κ α} {key : κ} {value : α} (h : t.get? key = some value) :
    (key, value) ∈ t.entries :=
  mem_of_lookup h

theorem Distinct.get?_of_mem {t : Table κ α} (h : t.Distinct) {key : κ} {value : α}
    (hmem : (key, value) ∈ t.entries) : t.get? key = some value :=
  lookup_of_mem h hmem

/-- A new key is added to the entries there are. -/
theorem set_of_get?_none {t : Table κ α} {key : κ} (h : t.get? key = none) (value : α) :
    t.set key value = ⟨(key, value) :: t.entries⟩ := by
  simp only [set, erase, Table.mk.injEq, List.cons.injEq, true_and, List.filter_eq_self]
  intro e he
  have hne := List.lookup_eq_none_iff.1 h e he
  simpa using fun heq : e.1 = key => by simp [heq] at hne

end Table

end SymbolAtlas
