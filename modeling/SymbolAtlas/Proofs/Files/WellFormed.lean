import Mathlib.Data.List.Nodup
import SymbolAtlas.Proofs.Files.Extent

namespace SymbolAtlas.Files

open SymbolAtlas.Files.Path

instance (name : String) : Decidable (IsName name) :=
  decidable_of_iff (name ≠ "" ∧ '/' ∉ name.toList ∧ Tree.isMove name = false)
    ⟨fun ⟨hne, hpiece, hstays⟩ => ⟨hne, hpiece, hstays⟩, fun h => ⟨h.nonempty, h.piece, h.stays⟩⟩

namespace Tree

variable {t u : Tree} {p : Path} {q : Place} {name : String} {entry : Entry} {contents : Bytes}

/-- Every place stands once, under names, in a directory. -/
structure WellFormed (t : Tree) : Prop where
  distinct : t.entries.Distinct
  named : ∀ e ∈ t.entries.entries, ∀ name ∈ e.1, IsName name
  enclosed : ∀ e ∈ t.entries.entries, t.get? e.1.dropLast = some .directory

instance (t : Tree) : Decidable t.WellFormed :=
  have : Decidable t.entries.Distinct := inferInstanceAs (Decidable (List.Nodup _))
  decidable_of_iff (t.entries.Distinct ∧
      (∀ e ∈ t.entries.entries, ∀ name ∈ e.1, IsName name) ∧
      ∀ e ∈ t.entries.entries, t.get? e.1.dropLast = some .directory)
    ⟨fun ⟨hdistinct, hnamed, henclosed⟩ => ⟨hdistinct, hnamed, henclosed⟩,
      fun h => ⟨h.distinct, h.named, h.enclosed⟩⟩

/-- Entries are found at their places. -/
theorem WellFormed.get?_eq_some (ht : t.WellFormed) (hq : q ≠ []) :
    t.get? q = some entry ↔ (q, entry) ∈ t.entries.entries := by
  rw [Tree.get?, if_neg (by simpa using hq)]
  exact ⟨Table.mem_entries_of_get?, ht.distinct.get?_of_mem⟩

/-- The way to an entry has names that a directory can list. -/
theorem WellFormed.isName (ht : t.WellFormed) (hentry : t.get? q = some entry) :
    ∀ name ∈ q, IsName name := by
  by_cases hq : q = []
  · rw [hq]
    exact nofun
  · exact ht.named _ ((ht.get?_eq_some hq).1 hentry)

/-- An entry stands in a directory. -/
theorem WellFormed.get?_dropLast (ht : t.WellFormed) (hentry : t.get? q = some entry) :
    t.get? q.dropLast = some .directory := by
  by_cases hq : q = []
  · rw [hq]
    rfl
  · exact ht.enclosed _ ((ht.get?_eq_some hq).1 hentry)

/-- What leads to an entry are directories. -/
theorem WellFormed.get?_above (ht : t.WellFormed) {steps : Place} (hsteps : steps ≠ [])
    (hentry : t.get? (q ++ steps) = some entry) : t.get? q = some .directory := by
  induction steps generalizing q with
  | nil => exact absurd rfl hsteps
  | cons name rest ih =>
    have hinner : ∃ entry, t.get? (q ++ [name]) = some entry := by
      by_cases hrest : rest = []
      · exact ⟨entry, hrest ▸ hentry⟩
      · rw [← List.singleton_append, ← List.append_assoc] at hentry
        exact ⟨.directory, ih hrest hentry⟩
    obtain ⟨entry, hinner⟩ := hinner
    simpa using ht.get?_dropLast hinner

/-! ## Changes -/

/-- A new entry in a directory, or another one in place of a file. -/
theorem WellFormed.put (ht : t.WellFormed) (hdir : t.get? q = some .directory) (hname : IsName name)
    (hkeep : entry = .directory ∨ t.get? (q ++ [name]) ≠ some .directory) :
    (t.put (q ++ [name]) entry).WellFormed := by
  have hne : q ++ [name] ≠ [] := by simp
  have hentries {e : Place × Entry} (he : e ∈ (t.put (q ++ [name]) entry).entries.entries) :
      e = (q ++ [name], entry) ∨ e ∈ t.entries.entries :=
    (List.mem_cons.1 he).imp_right List.mem_of_mem_filter
  refine ⟨ht.distinct.set _ _, fun e he => ?_, fun e he => ?_⟩
  · rcases hentries he with rfl | he
    · exact List.forall_mem_append.2 ⟨ht.isName hdir, by simpa using hname⟩
    · exact ht.named e he
  · have habove : t.get? e.1.dropLast = some .directory := by
      rcases hentries he with rfl | he
      · simpa using hdir
      · exact ht.enclosed e he
    rw [get?_put t _ _ entry hne]
    split
    · rename_i heq
      rw [heq] at habove
      exact congrArg some (hkeep.resolve_right (absurd habove))
    · exact habove

/-- The last step of a path goes into a directory. -/
theorem get?_of_lastStep (h : t.lastStep p = .ok (q, name)) (hmove : isMove name = false) :
    t.get? q = some .directory ∧ IsName name := by
  obtain ⟨_, -, h⟩ := except_bind_eq_ok.1 h
  split at h
  · obtain ⟨-, rfl⟩ := Prod.mk.inj (Except.ok.inj h)
    cases hmove
  · rename_i last front hlast
    obtain ⟨dir, -, h⟩ := except_bind_eq_ok.1 h
    split at h
    · rename_i hdir
      obtain ⟨rfl, rfl⟩ := Prod.mk.inj (Except.ok.inj h)
      obtain ⟨hne, empties, hpieces, -⟩ := exists_last_piece hlast
      have hmem : last ∈ p.pieces := by simp [hpieces]
      exact ⟨hdir, hne, slash_not_mem_of_mem_pieces hmem, hmove⟩
    · cases h
    · cases h

theorem WellFormed.write (ht : t.WellFormed) (h : t.write p contents = .ok u) : u.WellFormed := by
  obtain ⟨⟨dir, name⟩, hlast, h⟩ := except_bind_eq_ok.1 h
  dsimp only at h
  split at h
  · cases h
  rename_i hmove
  simp only [Bool.or_eq_true, not_or, Bool.not_eq_true] at hmove
  obtain ⟨hdir, hname⟩ := get?_of_lastStep hlast hmove.1
  split at h
  · cases h
  split at h
  · cases h
  · exact Except.ok.inj h ▸ ht.put hdir hname (.inr ‹_›)

theorem WellFormed.makeOne (ht : t.WellFormed) (h : t.makeOne p = .ok u) : u.WellFormed := by
  obtain ⟨⟨dir, name⟩, hlast, h⟩ := except_bind_eq_ok.1 h
  dsimp only at h
  split at h
  · cases h
  rename_i hmove
  obtain ⟨hdir, hname⟩ := get?_of_lastStep hlast (Bool.not_eq_true _ ▸ hmove)
  split at h
  · cases h
  split at h
  · cases h
  · exact Except.ok.inj h ▸ ht.put hdir hname (.inl rfl)

/-! ## What a directory lists -/

/-- The name that a place has in a directory. -/
theorem name_in_eq_some {r : Place} :
    (if r.dropLast = q then r.getLast? else none) = some name ↔ r = q ++ [name] := by
  constructor
  · intro h
    split at h
    · rename_i hq
      rw [← hq, List.dropLast_append_getLast? _ h]
    · cases h
  · rintro rfl
    rw [if_pos List.dropLast_concat, List.getLast?_concat]

theorem WellFormed.mem_children (ht : t.WellFormed) :
    name ∈ t.children q ↔ ∃ entry, t.get? (q ++ [name]) = some entry := by
  have hne : q ++ [name] ≠ [] := by simp
  simp only [children, List.mem_mergeSort, List.mem_filterMap, name_in_eq_some, ht.get?_eq_some hne]
  constructor
  · rintro ⟨⟨r, entry⟩, hmem, rfl⟩
    exact ⟨entry, hmem⟩
  · rintro ⟨entry, hmem⟩
    exact ⟨(q ++ [name], entry), hmem, rfl⟩

/-- The names are in order, and each is listed once. -/
theorem WellFormed.pairwise_children (ht : t.WellFormed) (q : Place) :
    (t.children q).Pairwise (· < ·) := by
  have hkeys := ht.distinct.filterMap (f := fun r : Place => if r.dropLast = q then r.getLast? else none)
    fun r r' name hr hr' => (name_in_eq_some.1 hr).trans (name_in_eq_some.1 hr').symm
  rw [List.filterMap_map] at hkeys
  exact Text.pairwise_mergeSort hkeys

end Tree

end SymbolAtlas.Files
