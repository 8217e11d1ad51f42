import SymbolAtlas.Config
import SymbolAtlas.Proofs.Except

namespace SymbolAtlas

open Files

namespace Config

inductive Setting
  | version
  | skipVersionCheck
  | allowUnstable
  | tool
  | compiler
  | flavor
  | repositories
  | defaultsDir
  deriving DecidableEq

namespace Setting

def home : Setting → String
  | version | skipVersionCheck | allowUnstable => "language"
  | tool | compiler | flavor | repositories | defaultsDir => "interop"

def key : Setting → String
  | version => "version"
  | skipVersionCheck => "skip_metadata_version_check"
  | allowUnstable => "allow_unstable_dependencies"
  | tool => "tool"
  | compiler => "compiler"
  | flavor => "flavor"
  | repositories => "repos"
  | defaultsDir => "default_libs_dir"

/-- The number of the setting in a section that lists its settings. -/
def index : Setting → Nat
  | version | tool => 0
  | skipVersionCheck | compiler => 1
  | allowUnstable | flavor => 2
  | repositories => 3
  | defaultsDir => 4

end Setting

def value (c : Config) : Setting → Option Toml.Value
  | .version => c.language.version.map .text
  | .skipVersionCheck => some (.bool c.language.skipVersionCheck)
  | .allowUnstable => some (.bool c.language.allowUnstable)
  | .tool => c.interop.tool.map .text
  | .compiler => c.interop.compiler.map .text
  | .flavor => c.interop.flavor.map .text
  | .repositories => some (.array (c.interop.repositories.map .text))
  | .defaultsDir => c.interop.defaultsDir.map .text

/-- The value of a setting that no file states. -/
def Setting.default (s : Setting) : Option Toml.Value :=
  ({} : Config).value s

/-- What a text states for a setting. -/
def settingIn? (text : String) (s : Setting) : Option Toml.Value := do
  let entries ← Toml.parse? text
  (← Section.ofEntry? (entries.lookup s.home)).setting? s.index s.key

/-- What a file states for a setting. One that is missing or cannot be used states nothing. -/
def stated? (t : Tree) (path : Path) (s : Setting) : Option Toml.Value :=
  match t.readText path with
  | .error _ => none
  | .ok text => if (parse? text).isSome then settingIn? text s else none

/-! ## Reading -/

theorem text?_eq_some {v : Option Toml.Value} {r : Option String} (h : text? v = some r) :
    r.map .text = v.or none := by
  rcases v with _ | v
  · exact Option.some.inj h ▸ rfl
  · cases v <;> first | cases h; rfl | cases h

theorem switch?_eq_some {v : Option Toml.Value} {b : Bool} (h : switch? v = some b) :
    some (.bool b) = v.or (some (.bool false)) := by
  rcases v with _ | v
  · exact Option.some.inj h ▸ rfl
  · cases v <;> first | cases h; rfl | cases h

theorem map_text_of_mapM {f : Toml.Value → Option String} (hf : ∀ v s, f v = some s → v = .text s)
    {items : List Toml.Value} {r : List String} (h : items.mapM f = some r) :
    r.map .text = items := by
  induction items generalizing r with
  | nil => exact Option.some.inj h ▸ rfl
  | cons item rest ih =>
    rw [List.mapM_cons] at h
    obtain ⟨s, hs, h⟩ := Option.bind_eq_some_iff.1 h
    obtain ⟨r', hr', h⟩ := Option.bind_eq_some_iff.1 h
    obtain rfl := Option.some.inj h
    rw [List.map_cons, ih hr', hf item s hs]

theorem texts?_eq_some {v : Option Toml.Value} {r : List String} (h : texts? v = some r) :
    some (.array (r.map .text)) = v.or (some (.array [])) := by
  rcases v with _ | v
  · exact Option.some.inj h ▸ rfl
  · cases v with
    | array items =>
      rw [map_text_of_mapM (fun v s hs => by cases v <;> first | cases hs; rfl | cases hs) h]
      rfl
    | _ => cases h

/-- A text that is read gives what it states, and defaults for all else. -/
theorem value_parse? {text : String} {c : Config} (h : parse? text = some c) (s : Setting) :
    c.value s = (settingIn? text s).or s.default := by
  obtain ⟨entries, hentries, h⟩ := Option.bind_eq_some_iff.1 h
  obtain ⟨language, hlanguage, h⟩ := Option.bind_eq_some_iff.1 h
  obtain ⟨l, hl, h⟩ := Option.bind_eq_some_iff.1 h
  obtain ⟨interop, hinterop, h⟩ := Option.bind_eq_some_iff.1 h
  obtain ⟨i, hi, h⟩ := Option.bind_eq_some_iff.1 h
  obtain rfl := Option.some.inj h
  obtain ⟨version, hversion, hl⟩ := Option.bind_eq_some_iff.1 hl
  obtain ⟨skip, hskip, hl⟩ := Option.bind_eq_some_iff.1 hl
  obtain ⟨unstable, hunstable, hl⟩ := Option.bind_eq_some_iff.1 hl
  obtain rfl := Option.some.inj hl
  obtain ⟨tool, htool, hi⟩ := Option.bind_eq_some_iff.1 hi
  obtain ⟨compiler, hcompiler, hi⟩ := Option.bind_eq_some_iff.1 hi
  obtain ⟨flavor, hflavor, hi⟩ := Option.bind_eq_some_iff.1 hi
  obtain ⟨repositories, hrepositories, hi⟩ := Option.bind_eq_some_iff.1 hi
  obtain ⟨dir, hdir, hi⟩ := Option.bind_eq_some_iff.1 hi
  obtain rfl := Option.some.inj hi
  have hentry (s : Setting) {stated : Section}
      (h : Section.ofEntry? (entries.lookup s.home) = some stated) :
      settingIn? text s = stated.setting? s.index s.key := by
    simp [settingIn?, hentries, h]
  cases s with
  | version => rw [hentry .version hlanguage]; exact text?_eq_some hversion
  | skipVersionCheck => rw [hentry .skipVersionCheck hlanguage]; exact switch?_eq_some hskip
  | allowUnstable => rw [hentry .allowUnstable hlanguage]; exact switch?_eq_some hunstable
  | tool => rw [hentry .tool hinterop]; exact text?_eq_some htool
  | compiler => rw [hentry .compiler hinterop]; exact text?_eq_some hcompiler
  | flavor => rw [hentry .flavor hinterop]; exact text?_eq_some hflavor
  | repositories => rw [hentry .repositories hinterop]; exact texts?_eq_some hrepositories
  | defaultsDir => rw [hentry .defaultsDir hinterop]; exact text?_eq_some hdir

theorem loadOrDefault_of_text {t : Tree} {path : Path} {text : String}
    (h : t.readText path = .ok text) : loadOrDefault t path = (parse? text).getD {} := by
  have htext : (t.readText path).mapError (Fault.unreadable path) = .ok text :=
    except_mapError_eq_ok.2 h
  unfold loadOrDefault load
  rw [htext]
  dsimp only [bind, Except.bind]
  cases parse? text <;> rfl

/-- A file gives what it states, and defaults for all else. -/
theorem value_loadOrDefault (t : Tree) (path : Path) (s : Setting) :
    (loadOrDefault t path).value s = (stated? t path s).or s.default := by
  unfold stated?
  cases htext : t.readText path with
  | error fault =>
    unfold loadOrDefault load
    rw [htext]
    rfl
  | ok text =>
    rw [loadOrDefault_of_text htext]
    dsimp only
    cases hparse : parse? text with
    | none => rfl
    | some c => exact value_parse? hparse s

/-! ## Merging -/

theorem map_or_cases {α β : Type} (f : α → β) (x y : Option α) :
    x.map f = none ∧ (x.or y).map f = y.map f ∨ x.map f ≠ none ∧ (x.or y).map f = x.map f := by
  cases x <;> simp

theorem bool_or_cases (b b' : Bool) :
    some (Toml.Value.bool b) = some (.bool false) ∧ some (Toml.Value.bool (b || b')) = some (.bool b') ∨
      some (Toml.Value.bool b) ≠ some (.bool false) ∧
        some (Toml.Value.bool (b || b')) = some (.bool b) := by
  cases b <;> simp

/-- What the project has at its default is taken from the user, all else from the project. -/
theorem value_merge (user project : Config) (s : Setting) :
    project.value s = s.default ∧ (user.merge project).value s = user.value s ∨
      project.value s ≠ s.default ∧ (user.merge project).value s = project.value s := by
  cases s with
  | version => exact map_or_cases _ project.language.version user.language.version
  | skipVersionCheck =>
    exact bool_or_cases project.language.skipVersionCheck user.language.skipVersionCheck
  | allowUnstable => exact bool_or_cases project.language.allowUnstable user.language.allowUnstable
  | tool => exact map_or_cases _ project.interop.tool user.interop.tool
  | compiler => exact map_or_cases _ project.interop.compiler user.interop.compiler
  | flavor => exact map_or_cases _ project.interop.flavor user.interop.flavor
  | repositories =>
    cases h : project.interop.repositories <;> simp [value, Setting.default, merge, h]
  | defaultsDir => exact map_or_cases _ project.interop.defaultsDir user.interop.defaultsDir

/-- What is loaded for a setting when the project does not state it, states its default value, or
states another value. -/
theorem value_loadBoth_cases (t : Tree) (user project : Path) (s : Setting) :
    let loaded := (loadBoth t user project).value s
    let below := (stated? t user s).or s.default
    stated? t project s = none ∧ loaded = below ∨
      ∃ v, stated? t project s = some v ∧
        (s.default = some v ∧ loaded = below ∨ s.default ≠ some v ∧ loaded = some v) := by
  intro loaded below
  have hproject := value_loadOrDefault t project s
  have hbelow : (loadOrDefault t user).value s = below := value_loadOrDefault t user s
  have hmerge := value_merge (loadOrDefault t user) (loadOrDefault t project) s
  cases hstated : stated? t project s with
  | none =>
    rw [hstated, Option.none_or] at hproject
    rcases hmerge with ⟨-, h⟩ | ⟨hne, -⟩
    · exact .inl ⟨rfl, h.trans hbelow⟩
    · exact absurd hproject hne
  | some v =>
    rw [hstated, Option.some_or] at hproject
    rcases hmerge with ⟨heq, h⟩ | ⟨hne, h⟩
    · exact .inr ⟨v, rfl, .inl ⟨heq.symm.trans hproject, h.trans hbelow⟩⟩
    · exact .inr ⟨v, rfl, .inr ⟨fun h => hne (hproject.trans h.symm), h.trans hproject⟩⟩

/-- **The project goes before the user, and the user before the default, but for what the project
states with its default value**: a switch that is off, or no repositories. That is taken from the user
as if the project did not state it. So the order is kept exactly when in this case the user states
nothing else. -/
theorem value_loadBoth (t : Tree) (user project : Path) (s : Setting) :
    let loaded := (loadBoth t user project).value s
    let below := (stated? t user s).or s.default
    (stated? t project s = none ∨ stated? t project s = s.default → loaded = below) ∧
      (∀ v, stated? t project s = some v → s.default ≠ some v → loaded = some v) ∧
      (loaded = (stated? t project s).or below ↔
        ∀ v, stated? t project s = some v → s.default = some v → below = some v) := by
  intro loaded below
  rcases value_loadBoth_cases t user project s with
    ⟨hnone, h⟩ | ⟨v, hstated, ⟨hdefault, h⟩ | ⟨hdefault, h⟩⟩
  · rw [hnone, Option.none_or]
    exact ⟨fun _ => h, nofun, iff_of_true h nofun⟩
  · rw [hstated, Option.some_or]
    refine ⟨fun _ => h, fun w hw hne => absurd (hw ▸ hdefault) hne, fun hv w hw _ => ?_, fun hv => ?_⟩
    · exact hw ▸ h.symm.trans hv
    · exact h.trans (hv v rfl hdefault)
  · rw [hstated, Option.some_or]
    refine ⟨?_, fun w hw _ => hw ▸ h, iff_of_true h fun w hw heq => absurd (hw ▸ heq) hdefault⟩
    rintro (hnone | heq)
    · cases hnone
    · exact absurd heq.symm hdefault

theorem eq_bool_of_switch? {v : Option Toml.Value} {b : Bool}
    (h : v.isSome = true ∧ switch? v = some b) : v = some (.bool b) := by
  obtain ⟨w, rfl⟩ := Option.isSome_iff_exists.1 h.1
  exact (switch?_eq_some h.2).symm

/-- A project that turns off what the user has turned on. The switch stays on. -/
theorem value_loadBoth_off :
    let t : Tree :=
      { entries := ⟨[(["user.toml"],
            .file (Text.bytesOfText "[language]\nskip_metadata_version_check = true\n")),
          (["project.toml"],
            .file (Text.bytesOfText "[language]\nskip_metadata_version_check = false\n"))]⟩
        workingDir := [] }
    stated? t ⟨"user.toml"⟩ .skipVersionCheck = some (.bool true) ∧
      stated? t ⟨"project.toml"⟩ .skipVersionCheck = some (.bool false) ∧
      (loadBoth t ⟨"user.toml"⟩ ⟨"project.toml"⟩).value .skipVersionCheck = some (.bool true) := by
  intro t
  have huser : stated? t ⟨"user.toml"⟩ .skipVersionCheck = some (.bool true) :=
    eq_bool_of_switch? (by decide +kernel)
  have hproject : stated? t ⟨"project.toml"⟩ .skipVersionCheck = some (.bool false) :=
    eq_bool_of_switch? (by decide +kernel)
  have hloaded : (loadBoth t ⟨"user.toml"⟩ ⟨"project.toml"⟩).language.skipVersionCheck = true := by
    decide +kernel
  exact ⟨huser, hproject, congrArg (some ∘ Toml.Value.bool) hloaded⟩

end Config

end SymbolAtlas
