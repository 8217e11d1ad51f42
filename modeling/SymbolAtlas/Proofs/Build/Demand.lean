import SymbolAtlas.Build.Resolver
import SymbolAtlas.Proofs.Build.Order

namespace SymbolAtlas

open Files

theorem Table.mem_of_get? {κ α : Type} [DecidableEq κ] {t : Table κ α} {key : κ} {value : α}
    (h : t.get? key = some value) : (key, value) ∈ t.entries := by
  obtain ⟨before, after, heq, -⟩ := List.lookup_eq_some_iff.1 h
  rw [heq]
  exact List.mem_append_right _ List.mem_cons_self

namespace Files.Tree

variable {t : Tree}

theorem mem_of_get? {place : Place} {contents : Bytes}
    (h : t.get? place = some (.file contents)) : (place, .file contents) ∈ t.entries.entries := by
  unfold get? at h
  split at h
  · cases h
  · exact Table.mem_of_get? h

/-- Text that is read is the text of a file of the tree. -/
theorem exists_file_of_readText {p : Path} {text : String} (h : t.readText p = .ok text) :
    ∃ place contents, (place, .file contents) ∈ t.entries.entries ∧
      Text.textOfBytes? contents = some text := by
  obtain ⟨contents, hread, htext⟩ := except_bind_eq_ok.1 h
  obtain ⟨entry, hfind, hentry⟩ := except_bind_eq_ok.1 hread
  obtain ⟨place, -, hget⟩ := except_bind_eq_ok.1 hfind
  cases entry with
  | directory => cases hentry
  | file bytes =>
    obtain rfl := Except.ok.inj hentry
    split at htext
    · rename_i text' hbytes
      obtain rfl := Except.ok.inj htext
      split at hget
      · rename_i entry hplace
        obtain rfl := Except.ok.inj hget
        exact ⟨place, bytes, mem_of_get? hplace, hbytes⟩
      · cases hget
    · cases htext

end Files.Tree

namespace LibrarySearch

variable {s : LibrarySearch} {t : Tree}

def site (s : LibrarySearch) (t : Tree) (d : LibraryDemand) : Except BuildError Path :=
  match d.path with
  | some path => .ok path
  | none => s.locate t d.requested

def Opens (s : LibrarySearch) (t : Tree) (d : LibraryDemand) (l : ResolvedLibrary) : Prop :=
  ∃ path, s.site t d = .ok path ∧ s.openAt t d.requested path d.isDefault = .ok l

theorem answer_eq (s : LibrarySearch) (t : Tree) (d : LibraryDemand) :
    s.answer t d = if s.skips d.requested then .ok none else do
      let path ← s.site t d
      let l ← s.openAt t d.requested path d.isDefault
      return if s.skips l.name then none else some l := by
  unfold answer site
  cases d.path <;> rfl

theorem answer_eq_ok {d : LibraryDemand} {r : Option ResolvedLibrary}
    (hd : s.skips d.requested = false) :
    s.answer t d = .ok r ↔ ∃ l, s.Opens t d l ∧ (if s.skips l.name then none else some l) = r := by
  rw [answer_eq, hd, if_neg Bool.false_ne_true]
  constructor
  · intro h
    obtain ⟨path, hp, h⟩ := except_bind_eq_ok.1 h
    obtain ⟨l, hl, h⟩ := except_bind_eq_ok.1 h
    exact ⟨l, ⟨path, hp, hl⟩, Except.ok.inj h⟩
  · rintro ⟨l, ⟨path, hp, hl⟩, rfl⟩
    exact except_bind_eq_ok.2 ⟨path, hp, except_bind_eq_ok.2 ⟨l, hl, rfl⟩⟩

theorem answer_eq_some {d : LibraryDemand} {l : ResolvedLibrary} :
    s.answer t d = .ok (some l) ↔
      s.skips d.requested = false ∧ s.Opens t d l ∧ s.skips l.name = false := by
  cases hd : s.skips d.requested with
  | true => simp [answer_eq, hd]
  | false =>
    rw [answer_eq_ok hd]
    constructor
    · rintro ⟨k, hk, heq⟩
      split at heq
      · cases heq
      · rename_i hname
        obtain rfl := Option.some.inj heq
        exact ⟨rfl, hk, by simpa using hname⟩
    · rintro ⟨-, hl, hname⟩
      exact ⟨l, hl, if_neg (by simp [hname])⟩

theorem answer_eq_none {d : LibraryDemand} :
    s.answer t d = .ok none ↔
      s.skips d.requested = true ∨ ∃ l, s.Opens t d l ∧ s.skips l.name = true := by
  cases hd : s.skips d.requested with
  | true => simp [answer_eq, hd]
  | false =>
    rw [answer_eq_ok hd]
    simp

theorem openAt_ok {requested : String} {path : Path} {isDefault : Bool} {l : ResolvedLibrary}
    (h : s.openAt t requested path isDefault = .ok l) :
    ∃ text, t.readText (DirectoryLibrary.manifestPath path) = .ok text ∧
      l.manifest = Manifest.parse text ∧ l.path = path ∧ l.isDefault = isDefault := by
  simp only [openAt] at h
  split at h
  · rename_i text hread
    obtain ⟨manifest, hm, h⟩ := except_bind_eq_ok.1 h
    obtain rfl := Except.ok.inj hm
    split at h
    · cases h
    · obtain rfl := Except.ok.inj h
      exact ⟨text, hread, rfl, rfl, rfl⟩
  · cases h

theorem locate_error {name : String} {e : BuildError} (h : s.locate t name = .error e) :
    ∃ searched, e = .unresolvedLibrary name searched := by
  unfold locate at h
  split at h
  · cases h
  · exact ⟨_, (Except.error.inj h).symm⟩

theorem openAt_error {requested : String} {path : Path} {isDefault : Bool} {e : BuildError}
    (h : s.openAt t requested path isDefault = .error e) :
    ∃ reason, e = .incompatibleLibrary requested reason := by
  simp only [openAt] at h
  split at h
  · obtain ⟨manifest, -, h⟩ := (except_bind_eq_error.1 h).resolve_left (fun h => by cases h)
    split at h
    · exact ⟨_, (Except.error.inj h).symm⟩
    · cases h
  · exact ⟨_, (Except.error.inj h).symm⟩

/-- A demand is only left unanswered when its library is not found or cannot be used. -/
theorem answer_error {d : LibraryDemand} {e : BuildError} (h : s.answer t d = .error e) :
    (∃ searched, e = .unresolvedLibrary d.requested searched) ∨
      ∃ reason, e = .incompatibleLibrary d.requested reason := by
  rw [answer_eq] at h
  split at h
  · cases h
  rcases except_bind_eq_error.1 h with hsite | ⟨path, -, h⟩
  · unfold site at hsite
    split at hsite
    · cases hsite
    · exact .inl (locate_error hsite)
  rcases except_bind_eq_error.1 h with hopen | ⟨l, -, h⟩
  · exact .inr (openAt_error hopen)
  · cases h

/-- What an opened library depends on stands in one of the manifests of the tree. -/
theorem depends_sublist {d : LibraryDemand} {l : ResolvedLibrary} (h : s.Opens t d l) :
    l.manifest.depends.Sublist (namesIn t) := by
  obtain ⟨path, -, hopen⟩ := h
  obtain ⟨text, hread, hmanifest, -⟩ := openAt_ok hopen
  obtain ⟨place, contents, hmem, htext⟩ := Files.Tree.exists_file_of_readText hread
  obtain ⟨before, after, hsplit⟩ := List.append_of_mem hmem
  rw [namesIn, hsplit, List.flatMap_append, List.flatMap_cons]
  simp only [htext, Option.map_some, Option.getD_some, hmanifest]
  exact (List.sublist_append_left _ _).trans (List.sublist_append_right _ _)

end LibrarySearch

end SymbolAtlas
