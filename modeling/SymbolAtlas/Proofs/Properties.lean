import Mathlib.Data.List.Induction
import SymbolAtlas.Properties
import SymbolAtlas.Table

namespace SymbolAtlas.Properties

theorem put_eq_append {key value : String} {entries : List (String × String)}
    (h : ∀ e ∈ entries, e.1 < key) : put key value entries = entries ++ [(key, value)] := by
  induction entries with
  | nil => rfl
  | cons e rest ih =>
    obtain ⟨he, hrest⟩ := List.forall_mem_cons.1 h
    have hlt : ¬ key < e.1 := fun hlt => String.lt_irrefl _ (String.lt_trans hlt he)
    have hne : key ≠ e.1 := fun heq => String.lt_irrefl _ (heq ▸ he : key < key)
    rw [put, if_neg hlt, if_neg hne, ih hrest, List.cons_append]

theorem length_put_le (key value : String) (entries : List (String × String)) :
    (put key value entries).length ≤ entries.length + 1 := by
  induction entries with
  | nil => exact Nat.le_refl _
  | cons e rest ih =>
    unfold put
    split
    · simp
    · split
      · simp
      · simpa using ih

/-- Entries that come in order are added one after the other. -/
theorem entries_foldl_set {t : Properties} {entries : List (String × String)}
    (h : (t.entries ++ entries).Pairwise (fun a b => a.1 < b.1)) :
    (entries.foldl (fun t e => t.set e.1 e.2) t).entries = t.entries ++ entries := by
  induction entries generalizing t with
  | nil => simp
  | cons e rest ih =>
    have hlast : ∀ e' ∈ t.entries, e'.1 < e.1 := fun e' he' =>
      (List.pairwise_append.1 h).2.2 e' he' e List.mem_cons_self
    have hset : (t.set e.1 e.2).entries = t.entries ++ [e] := put_eq_append hlast
    rw [List.foldl_cons, ih, hset, List.append_assoc, List.singleton_append]
    rwa [hset, List.append_assoc, List.singleton_append]

theorem ofList_entries (t : Properties) : ofList t.entries = t := by
  have h : (ofList t.entries).entries = t.entries := entries_foldl_set (t := empty) t.sorted
  exact ext_get? fun k => congrArg (List.lookup k) h

theorem mem_ofList {entries : List (String × String)} {e : String × String}
    (h : e ∈ (ofList entries).entries) : e ∈ entries := by
  suffices hfold : ∀ t : Properties, e ∈ (entries.foldl (fun t e => t.set e.1 e.2) t).entries →
      e ∈ t.entries ∨ e ∈ entries from
    (hfold empty h).resolve_left List.not_mem_nil
  clear h
  induction entries with
  | nil => exact fun t ht => .inl ht
  | cons a rest ih =>
    intro t ht
    rcases ih _ ht with ht | hrest
    · rcases mem_put ht with rfl | ht
      · exact .inr List.mem_cons_self
      · exact .inl ht
    · exact .inr (List.mem_cons_of_mem a hrest)

theorem length_ofList_le (entries : List (String × String)) :
    (ofList entries).entries.length ≤ entries.length := by
  suffices hfold : ∀ t : Properties, (entries.foldl (fun t e => t.set e.1 e.2) t).entries.length ≤
      t.entries.length + entries.length from
    Nat.le_trans (hfold empty) (Nat.le_of_eq (Nat.zero_add _))
  induction entries with
  | nil => exact fun t => Nat.le_refl _
  | cons a rest ih =>
    intro t
    have hput := length_put_le a.1 a.2 t.entries
    have hrest := ih (t.set a.1 a.2)
    simp only [List.foldl_cons, List.length_cons, set] at hrest ⊢
    omega

/-- The last value under a key stays. -/
theorem get?_ofList_concat (entries : List (String × String)) (key value : String) :
    (ofList (entries ++ [(key, value)])).get? key = some value := by
  rw [ofList, List.foldl_append]
  exact get?_set_self _ key value

/-- The last value under a key stays, and a key that has none keeps what it had. -/
theorem get?_foldl_set (t : Properties) (entries : List (String × String)) (k : String) :
    (entries.foldl (fun t e => t.set e.1 e.2) t).get? k =
      ((ofList entries).get? k).or (t.get? k) := by
  induction entries using List.reverseRecOn with
  | nil => rfl
  | append_singleton front e ih =>
    rw [ofList, List.foldl_append, List.foldl_append]
    change (Properties.set _ e.1 e.2).get? k = ((Properties.set _ e.1 e.2).get? k).or (t.get? k)
    by_cases hk : k = e.1
    · rw [hk, get?_set_self, get?_set_self, Option.some_or]
    · rw [get?_set_of_ne _ _ hk, get?_set_of_ne _ _ hk]
      exact ih

/-- The table with the values of `u` in place of its own where both have one. -/
def overriddenBy (t u : Properties) : Properties :=
  u.entries.foldl (fun t e => t.set e.1 e.2) t

theorem get?_overriddenBy (t u : Properties) (k : String) :
    (t.overriddenBy u).get? k = (u.get? k).or (t.get? k) := by
  rw [overriddenBy, get?_foldl_set, ofList_entries]

theorem ofList_append (front back : List (String × String)) :
    ofList (front ++ back) = (ofList front).overriddenBy (ofList back) := by
  refine ext_get? fun k => ?_
  rw [get?_overriddenBy, ofList, List.foldl_append]
  exact get?_foldl_set (ofList front) back k

theorem get?_of_mem {t : Properties} {e : String × String} (h : e ∈ t.entries) :
    t.get? e.1 = some e.2 := by
  have hkeys : (t.entries.map (·.1)).Nodup := by
    refine List.pairwise_map.2 (t.sorted.imp fun {a b} hlt heq => ?_)
    exact String.lt_irrefl _ (heq ▸ hlt : b.1 < b.1)
  exact lookup_of_mem hkeys h

end SymbolAtlas.Properties
