import SymbolAtlas.Build.Stages

/-!
# Requests with more arguments after them

An argument is looked at together with the one that follows it. So of arguments that are put after
others only the first one makes a difference to these, and only to the last of them.

* `exists_scan_append`: how a list is read when others follow it;
* `scan_append`: its last argument is read again with what follows it;
* `scan_values`: a flag that is written once for each of several values;
* `parse_effectiveArguments`: when the configured repositories are only added to what is asked for;
* `parse_concat`: what a flag at the end asks for.
-/

namespace SymbolAtlas

namespace BuildRequest

variable {r : BuildRequest} {argument : String} {next : Option String}

/-! ## One argument -/

/-- Whether the argument is a flag whose value is the next argument. -/
def wantsValue (argument : String) : Bool :=
  isOutputFlag argument ||
    ["-target", "-library", "-r", "-repo", "--temporary_files_dir"].contains argument

/-- A flag that is read a second time, now with a value, is read as if it had been so at first. -/
theorem take_take (r : BuildRequest) (argument : String) (next : Option String) :
    (r.take argument none).take argument next = r.take argument next := by
  grind [take]

/-- An argument that wants no value is read in the same way whatever follows it. -/
theorem take_congr (h : wantsValue argument = false) (r : BuildRequest) (next next' : Option String) :
    r.take argument next = r.take argument next' := by
  simp only [wantsValue, List.contains_eq_mem, List.mem_cons, List.not_mem_nil, or_false,
    Bool.or_eq_false_iff, decide_eq_false_iff_not, not_or] at h
  obtain ⟨houtput, htarget, hlibrary, hr, hrepo, hdir⟩ := h
  simp [take, houtput, htarget, hlibrary, hr, hrepo, hdir]

/-- An argument is a flag, or it asks for nothing. -/
theorem flag_cases (argument : String) : isOutputFlag argument = true ∨
    argument ∈ ["-target", "-library", "-r", "-repo", "--temporary_files_dir", dropDefaultsFlag,
      purgeFlag] ∨
    wantsValue argument = false ∧ ∀ (r : BuildRequest) next, r.take argument next = r := by
  refine Classical.or_iff_not_imp_left.2 fun houtput => Classical.or_iff_not_imp_left.2 fun hmem => ?_
  simp only [List.mem_cons, List.not_mem_nil, or_false, not_or] at hmem
  obtain ⟨htarget, hlibrary, hr, hrepo, hdir, hdrop, hpurge⟩ := hmem
  constructor
  · simp [wantsValue, houtput, htarget, hlibrary, hr, hrepo, hdir]
  · intro r next
    simp [take, houtput, htarget, hlibrary, hr, hrepo, hdrop, hpurge, hdir]

/-- A flag that wants a value and has none asks for nothing, but that it clears the directory of
temporary files. -/
theorem take_none (h : wantsValue argument = true) (r : BuildRequest) :
    r.take argument none = { r with
      temporaryDir := if argument = "--temporary_files_dir" then "" else r.temporaryDir } := by
  rw [wantsValue, Bool.or_eq_true, List.contains_iff_mem] at h
  rcases h with houtput | hmem
  · have hdir : argument ≠ "--temporary_files_dir" := by
      rintro rfl
      exact absurd houtput (by decide)
    simp [take, houtput, hdir]
  · simp only [List.mem_cons, List.not_mem_nil, or_false] at hmem
    rcases hmem with rfl | rfl | rfl | rfl | rfl <;>
      simp [take, isOutputFlag, dropDefaultsFlag, purgeFlag]

/-- An argument asks for nothing unless it begins as one of the flags does. -/
theorem flag_begins (argument : String) :
    (∀ (r : BuildRequest) next, r.take argument next = r) ∨
      ∃ c ∈ ['o', 't', 'l', 'r', '-', 'n'], ['-', c] <+: argument.toList := by
  rcases flag_cases argument with houtput | hmem | ⟨-, htake⟩
  · exact .inr ⟨'o', by decide, List.isPrefixOf_iff_prefix.1 houtput⟩
  · have hflags : ∀ flag ∈ ["-target", "-library", "-r", "-repo", "--temporary_files_dir",
        dropDefaultsFlag, purgeFlag],
        ['o', 't', 'l', 'r', '-', 'n'].any (['-', ·].isPrefixOf flag.toList) = true := by decide
    obtain ⟨c, hc, hbegins⟩ := List.any_eq_true.1 (hflags argument hmem)
    exact .inr ⟨c, hc, List.isPrefixOf_iff_prefix.1 hbegins⟩
  · exact .inl htake

/-- What does not begin with a dash is no flag. -/
theorem take_of_no_dash (h : argument.toList.head? ≠ some '-') : r.take argument next = r := by
  rcases flag_begins argument with htake | ⟨c, -, rest, hrest⟩
  · exact htake r next
  · exact absurd (by rw [← hrest]; rfl) h

/-! ## Lists of arguments -/

/-- Whatever follows, the arguments before the last one are read in the same way. -/
theorem exists_scan_append (r : BuildRequest) (front : List String) (last : String) :
    ∃ before : BuildRequest, ∀ more,
      r.scan (front ++ last :: more) = (before.take last more.head?).scan more := by
  induction front generalizing r with
  | nil => exact ⟨r, fun _ => rfl⟩
  | cons argument rest ih =>
    obtain ⟨before, hbefore⟩ := ih (r.take argument (rest ++ [last]).head?)
    refine ⟨before, fun more => ?_⟩
    have hnext : (rest ++ last :: more).head? = (rest ++ [last]).head? := by cases rest <;> rfl
    rw [List.cons_append, scan, hnext, hbefore]

/-- The last argument is read again, now with what follows it. -/
theorem scan_append (r : BuildRequest) (front : List String) (last : String) (more : List String) :
    r.scan (front ++ last :: more) =
      ((r.scan (front ++ [last])).take last more.head?).scan more := by
  obtain ⟨before, hbefore⟩ := exists_scan_append r front last
  have halone : r.scan (front ++ [last]) = before.take last none := hbefore []
  rw [hbefore, halone, take_take]

/-- A value that asks for nothing itself is passed over. -/
theorem scan_value {value : String} (h : ∀ (r : BuildRequest) next, r.take value next = r)
    (r : BuildRequest) (flag : String) (more : List String) :
    r.scan (flag :: value :: more) = (r.take flag (some value)).scan more := by
  rw [scan, scan, h, List.head?_cons]

/-- A flag that is written once for each value, when none of the values is a flag. -/
theorem scan_values (add : BuildRequest → List String → BuildRequest) {flag : String}
    (hnil : ∀ r, add r [] = r)
    (hcons : ∀ r value rest, add (r.take flag (some value)) rest = add r (value :: rest))
    {values : List String} (h : ∀ value ∈ values, value.toList.head? ≠ some '-')
    (r : BuildRequest) (more : List String) :
    r.scan ((values.flatMap fun value => [flag, value]) ++ more) = (add r values).scan more := by
  induction values generalizing r with
  | nil => rw [hnil]; rfl
  | cons value rest ih =>
    obtain ⟨hvalue, hrest⟩ := List.forall_mem_cons.1 h
    rw [List.flatMap_cons, List.append_assoc, List.cons_append, List.singleton_append,
      scan_value fun _ _ => take_of_no_dash hvalue, ih hrest, hcons]

theorem scan_libraries {libraries : List String}
    (h : ∀ library ∈ libraries, library.toList.head? ≠ some '-') (r : BuildRequest)
    (more : List String) :
    r.scan ((libraries.flatMap fun library => ["-library", library]) ++ more) =
      scan { r with libraries := r.libraries ++ libraries } more :=
  scan_values (fun r libraries => { r with libraries := r.libraries ++ libraries })
    (fun r => by simp only [List.append_nil]) (fun r library rest => by simp [take, isOutputFlag]) h r more

theorem scan_repositories_append {repositories : List String}
    (h : ∀ repository ∈ repositories, repository.toList.head? ≠ some '-') (r : BuildRequest)
    (more : List String) :
    r.scan ((repositories.flatMap fun repository => ["-repo", repository]) ++ more) =
      scan { r with repositories := r.repositories ++ repositories } more :=
  scan_values (fun r repositories => { r with repositories := r.repositories ++ repositories })
    (fun r => by simp only [List.append_nil]) (fun r repository rest => by simp [take, isOutputFlag]) h r more

/-- A list of repositories is read as one when none of them is a flag. -/
theorem scan_repositories {repositories : List String} (r : BuildRequest)
    (h : ∀ repository ∈ repositories, repository.toList.head? ≠ some '-') :
    r.scan (repositories.flatMap fun repository => ["-repo", repository]) =
      { r with repositories := r.repositories ++ repositories } := by
  have happend := scan_repositories_append h r []
  rwa [List.append_nil] at happend

/-- `r'` asks for what `r` asks for, and for libraries of further repositories. -/
structure Extends (r r' : BuildRequest) (further : List String) : Prop where
  outputName : r'.outputName = r.outputName
  target : r'.target = r.target
  libraries : r'.libraries = r.libraries
  repositories : r'.repositories = r.repositories ++ further
  dropDefaults : r'.dropDefaults = r.dropDefaults
  purgeUserLibraries : r'.purgeUserLibraries = r.purgeUserLibraries
  temporaryDir : r'.temporaryDir = r.temporaryDir

theorem extends_refl (r : BuildRequest) (further : List String) :
    r.Extends { r with repositories := r.repositories ++ further } further :=
  ⟨rfl, rfl, rfl, rfl, rfl, rfl, rfl⟩

/-- A last argument that had nothing to take is read again with a flag after it. Nothing changes
only if it wants no value, or if its value was that flag already. -/
theorem extends_take_iff (before : BuildRequest) (last : String) (further : List String) :
    let r := before.take last none
    let r' := r.take last (some "-repo")
    r.Extends { r' with repositories := r'.repositories ++ further } further ↔
      (wantsValue last = true → isOutputFlag last = true ∧ r.outputName = "-repo" ∨
        last = "-target" ∧ r.target = "-repo") := by
  intro r r'
  have hnever (hwants : wantsValue last = true) (houtput : isOutputFlag last = false)
      (htarget : last ≠ "-target") : ¬ (wantsValue last = true →
        isOutputFlag last = true ∧ r.outputName = "-repo" ∨ last = "-target" ∧ r.target = "-repo") := by
    simp [hwants, houtput, htarget]
  rcases flag_cases last with houtput | hmem | ⟨hwants, htake⟩
  case inl =>
    have hr' : r' = { r with outputName := "-repo" } := by simp [r', take, houtput]
    rw [hr']
    constructor
    · exact fun h _ => .inl ⟨houtput, h.outputName.symm⟩
    · intro h
      rcases h (by simp [wantsValue, houtput]) with ⟨-, hname⟩ | ⟨rfl, -⟩
      · exact ⟨hname.symm, rfl, rfl, rfl, rfl, rfl, rfl⟩
      · exact absurd houtput (by decide)
  case inr.inl =>
    simp only [List.mem_cons, List.not_mem_nil, or_false] at hmem
    rcases hmem with rfl | rfl | rfl | rfl | rfl | rfl | rfl
    · constructor
      · exact fun h _ => .inr ⟨rfl, h.target.symm⟩
      · intro h
        rcases h rfl with ⟨houtput, -⟩ | ⟨-, htarget⟩
        · exact absurd houtput (by decide)
        · exact ⟨rfl, htarget.symm, rfl, rfl, rfl, rfl, rfl⟩
    · refine iff_of_false (fun h => ?_) (hnever (by decide) (by decide) (by decide))
      have hlibraries : r.libraries ++ ["-repo"] = r.libraries := h.libraries
      simp at hlibraries
    · refine iff_of_false (fun h => ?_) (hnever (by decide) (by decide) (by decide))
      have hrepositories : r.repositories ++ ["-repo"] ++ further = r.repositories ++ further :=
        h.repositories
      simp at hrepositories
    · refine iff_of_false (fun h => ?_) (hnever (by decide) (by decide) (by decide))
      have hrepositories : r.repositories ++ ["-repo"] ++ further = r.repositories ++ further :=
        h.repositories
      simp at hrepositories
    · refine iff_of_false (fun h => ?_) (hnever (by decide) (by decide) (by decide))
      have hdir : "-repo" = "" := h.temporaryDir
      exact absurd hdir (by decide)
    · exact iff_of_true (extends_refl r further) fun h => absurd h (by decide)
    · exact iff_of_true (extends_refl r further) fun h => absurd h (by decide)
  case inr.inr =>
    have hr' : r' = r := htake r _
    rw [hr']
    exact iff_of_true (extends_refl r further) fun h => absurd h (by rw [hwants]; decide)

theorem extends_parse_iff {arguments arguments' further : List String} :
    (parse arguments).Extends (parse arguments') further ↔
      (scan {} arguments).Extends (scan {} arguments') further :=
  ⟨fun h => ⟨h.outputName, h.target, h.libraries, h.repositories, h.dropDefaults,
      h.purgeUserLibraries, h.temporaryDir⟩,
    fun h => ⟨h.outputName, h.target, h.libraries, h.repositories, h.dropDefaults,
      h.purgeUserLibraries, h.temporaryDir⟩⟩

/-- **The configured repositories are only added to what is asked for** unless the last argument is a
flag that wants a value: it then takes the flag in front of the first repository as its value. That
changes nothing only if this is the name of the output, or the target, already. -/
theorem parse_effectiveArguments (o : BuildOptions) (arguments : List String)
    (h : ∀ repository ∈ o.config.interop.repositories, repository.toList.head? ≠ some '-') :
    (parse arguments).Extends (parse (o.effectiveArguments arguments)) o.config.interop.repositories ↔
      o.config.interop.repositories = [] ∨ ∀ last ∈ arguments.getLast?, wantsValue last = true →
        isOutputFlag last = true ∧ (parse arguments).outputName = "-repo" ∨
          last = "-target" ∧ (parse arguments).target = "-repo" := by
  rw [extends_parse_iff, BuildOptions.effectiveArguments]
  generalize o.config.interop.repositories = repositories at h ⊢
  rcases repositories with _ | ⟨repository, rest⟩
  · simpa using extends_refl (scan {} arguments) []
  rcases List.eq_nil_or_concat arguments with rfl | ⟨front, last, rfl⟩
  · rw [List.nil_append, scan_repositories _ h]
    exact iff_of_true (extends_refl {} _) (.inr nofun)
  · -- The flag of the first repository is what `last` is read with when it is read again.
    obtain ⟨before, hbefore⟩ := exists_scan_append {} front last
    have halone : scan {} (front ++ [last]) = before.take last none := hbefore []
    rw [List.concat_eq_append, List.append_assoc, List.singleton_append,
      scan_append _ _ _ (List.flatMap _ _), scan_repositories _ h, halone]
    simpa [parse, halone] using extends_take_iff before last (repository :: rest)

/-- A build that ends in a library and has one repository configured. -/
theorem parse_effectiveArguments_library :
    let o : BuildOptions := { config.interop.repositories := ["/opt/klib"] }
    (parse ["-library", "posix"]).Extends (parse (o.effectiveArguments ["-library", "posix"]))
      ["/opt/klib"] :=
  (parse_effectiveArguments { config.interop.repositories := ["/opt/klib"] } ["-library", "posix"]
    (by decide)).2 (by decide)

/-- Arguments that end in a flag without its value, which keeps its default until a repository is
configured. -/
theorem parse_effectiveArguments_output :
    let o : BuildOptions := { config.interop.repositories := ["/opt/klib"] }
    (parse ["-o"]).outputName = "nativelib" ∧
      (parse (o.effectiveArguments ["-o"])).outputName = "-repo" := by
  decide

/-! ## A flag at the end -/

/-- The last argument is read again with the flag as the next one. That names the output after the
flag, or changes nothing. -/
theorem scan_concat (r : BuildRequest) {arguments : List String}
    (hlast : ∀ last ∈ arguments.getLast?, wantsValue last = true → isOutputFlag last = true)
    (flag : String) : r.scan (arguments ++ [flag]) =
      take { r.scan arguments with
        outputName := if arguments.getLast?.any isOutputFlag then flag
          else (r.scan arguments).outputName } flag none := by
  rcases List.eq_nil_or_concat arguments with rfl | ⟨front, last, rfl⟩
  · rfl
  rw [List.concat_eq_append] at hlast ⊢
  have hwants := hlast last (by simp)
  obtain ⟨before, hbefore⟩ := exists_scan_append r front last
  have halone : r.scan (front ++ [last]) = before.take last none := hbefore []
  have hnext : r.scan (front ++ [last] ++ [flag]) = (before.take last (some flag)).take flag none := by
    rw [List.append_assoc]
    exact hbefore [flag]
  rw [hnext, halone, List.getLast?_concat, Option.any_some]
  cases houtput : isOutputFlag last with
  | true => simp [take, houtput]
  | false =>
    have hnone : wantsValue last = false := by
      rw [← Bool.not_eq_true]
      exact fun h => absurd (hwants h) (by simp [houtput])
    rw [take_congr hnone before (some flag) none]
    rfl

/-- **A flag at the end asks for nothing, but it clears the directory of temporary files** if it is the
flag for that. All else is as it was without the flag, unless the argument before it names the output:
then the flag is the name. -/
theorem parse_concat {flag : String} (hflag : wantsValue flag = true) {arguments : List String}
    (hlast : ∀ last ∈ arguments.getLast?, wantsValue last = true → isOutputFlag last = true) :
    parse (arguments ++ [flag]) = { parse arguments with
      outputName := if arguments.getLast?.any isOutputFlag then flag else (parse arguments).outputName
      temporaryDir := if flag = "--temporary_files_dir" then "" else (parse arguments).temporaryDir
      arguments := arguments ++ [flag] } := by
  rw [parse, scan_concat {} hlast, take_none hflag]
  rfl

/-- A flag for a repository, after all settings were given. -/
theorem parse_concat_repository :
    let arguments := ["-o", "sdl", "-target", "linux", "-library", "posix", "-r", "/r1",
      "--temporary_files_dir", "/tmp/x", "-nodefaultlibs"]
    wantsValue "-repo" = true ∧
      (∀ last ∈ arguments.getLast?, wantsValue last = true → isOutputFlag last = true) ∧
      parse (arguments ++ ["-repo"]) =
        { parse arguments with arguments := arguments ++ ["-repo"] } := by
  intro arguments
  have hflag : wantsValue "-repo" = true := by decide
  have hlast : ∀ last ∈ arguments.getLast?, wantsValue last = true → isOutputFlag last = true := by
    decide
  exact ⟨hflag, hlast, parse_concat hflag hlast⟩

/-- A directory of temporary files that was given is lost. -/
theorem parse_concat_temporaryDir :
    wantsValue "--temporary_files_dir" = true ∧ wantsValue "/tmp/x" = false ∧
      (parse ["--temporary_files_dir", "/tmp/x"]).temporaryDir = "/tmp/x" ∧
      (parse (["--temporary_files_dir", "/tmp/x"] ++ ["--temporary_files_dir"])).temporaryDir = "" := by
  decide

end BuildRequest

end SymbolAtlas
