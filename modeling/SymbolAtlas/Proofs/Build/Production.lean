import SymbolAtlas.Proofs.Build.Request
import SymbolAtlas.Proofs.Build.Stages

namespace SymbolAtlas

open Files LibrarySearch

namespace BuildRequest

variable {r : BuildRequest} {outputName : String}

/-! ## Switches -/

/-- The switches that were on are on again. -/
theorem scan_switches (r r' : BuildRequest) (hdrop : r'.dropDefaults = false)
    (hpurge : r'.purgeUserLibraries = false) :
    r'.scan r.switches =
      { r' with dropDefaults := r.dropDefaults, purgeUserLibraries := r.purgeUserLibraries } := by
  obtain ⟨⟩ := r'
  simp only at hdrop hpurge
  subst hdrop hpurge
  unfold switches
  cases r.dropDefaults <;> cases r.purgeUserLibraries <;> rfl

/-! ## The places of a build -/

/-- A place of the build begins as the output does, or it has no output to begin with. -/
theorem take_place (hname : outputName.toList.head? ≠ some '-') {place rest : String}
    (hplace : place = outputName ++ "-build" ++ rest) (r : BuildRequest) (next : Option String) :
    r.take place next = r := by
  cases hchars : outputName.toList with
  | nil =>
    have hbegin : ['-', 'b'] <+: place.toList := by
      simp [hplace, hchars]
    rcases flag_begins place with htake | ⟨c, hc, hflag⟩
    · exact htake r next
    · have hsame := List.prefix_of_prefix_length_le hbegin hflag (by simp)
      have hb : 'b' ∉ ['o', 't', 'l', 'r', '-', 'n'] := by decide
      simp at hsame
      exact absurd (hsame ▸ hc) hb
  | cons c cs =>
    refine take_of_no_dash ?_
    rw [hplace, String.toList_append, String.toList_append, hchars]
    rwa [hchars] at hname

/-- A file in a directory of the build is no flag either. -/
theorem take_join {dir : Path} {rest name : String} (hname : outputName.toList.head? ≠ some '-')
    (hdir : dir.text = outputName ++ "-build" ++ rest) (h : Path.IsName name)
    (r : BuildRequest) (next : Option String) : r.take (dir.join name).text next = r := by
  have hne : dir.text ≠ "" := by simp [hdir]
  obtain ⟨more, hmore⟩ := Path.exists_text_join hne h
  exact take_place hname (by rw [hmore, hdir, String.append_assoc]) r next

theorem take_join_root {name : String} (hname : outputName.toList.head? ≠ some '-')
    (h : Path.IsName name) (r : BuildRequest) (next : Option String) :
    r.take ((BuildLayout.ofOutput outputName).root.join name).text next = r :=
  take_join hname (String.append_empty).symm h r next

/-- The arguments that link the stubs ask for nothing. -/
theorem scan_stubArguments (hname : outputName.toList.head? ≠ some '-') (scripts : Bool)
    (r : BuildRequest) (more : List String) :
    r.scan ((BuildLayout.ofOutput outputName).stubArguments scripts ++ more) = r.scan more := by
  have hnatives : Path.IsName "natives" := ⟨by decide, by decide, by decide⟩
  obtain ⟨rest, hdir⟩ := Path.exists_text_join (p := (BuildLayout.ofOutput outputName).root)
    (by simp [BuildLayout.ofOutput]) hnatives
  cases scripts with
  | true => exact scan_value (take_join hname hdir ⟨by decide, by decide, by decide⟩) r _ more
  | false => exact scan_value (take_join hname hdir ⟨by decide, by decide, by decide⟩) r _ more

/-! ## The second stage -/

/-- What the second stage is asked to use is nothing that reads as a flag. -/
structure NoFlags (r : BuildRequest) : Prop where
  outputName : r.outputName.toList.head? ≠ some '-'
  temporaryDir : r.temporaryDir.toList.head? ≠ some '-'
  libraries : ∀ library ∈ r.libraries, library.toList.head? ≠ some '-'
  repositories : ∀ repository ∈ r.repositories, repository.toList.head? ≠ some '-'

instance : Decidable r.NoFlags :=
  decidable_of_iff (r.outputName.toList.head? ≠ some '-' ∧ r.temporaryDir.toList.head? ≠ some '-' ∧
      (∀ library ∈ r.libraries, library.toList.head? ≠ some '-') ∧
      ∀ repository ∈ r.repositories, repository.toList.head? ≠ some '-')
    ⟨fun ⟨houtput, hdir, hlibraries, hrepositories⟩ => ⟨houtput, hdir, hlibraries, hrepositories⟩,
      fun h => ⟨h.outputName, h.temporaryDir, h.libraries, h.repositories⟩⟩

/-- What the compiler is handed for a plan asks for all that the plan was made for. -/
theorem parse_compilerArguments_plan {p : BuildPlan} (h : p.request.NoFlags) (flavor : String) :
    parse (p.compilerArguments flavor []) =
      { p.request with
        target := p.target.visibleName, arguments := p.compilerArguments flavor [] } := by
  have hgenerated : Path.IsName "kotlin" := ⟨by decide, by decide, by decide⟩
  have hmanifest : Path.IsName "manifest.properties" := ⟨by decide, by decide, by decide⟩
  have htarget : p.target.visibleName.toList.head? ≠ some '-' := by
    cases p.target <;> decide
  have hcode : p.compilerArguments flavor [] = p.layout.generatedDir.text ::
      "-produce" :: "library" :: "-o" :: p.request.outputName ::
      "-target" :: p.target.visibleName :: "-manifest" :: p.layout.manifest.text ::
      "--temporary_files_dir" :: p.request.temporaryDir ::
      (p.layout.stubArguments (p.hasScriptStubs flavor) ++
        ((p.request.libraries.flatMap fun library => ["-library", library]) ++
          ((p.request.repositories.flatMap fun repository => ["-repo", repository]) ++
            p.request.switches))) := by
    simp [BuildPlan.compilerArguments]
  have hscan : scan {} (p.compilerArguments flavor []) =
      { p.request with target := p.target.visibleName, arguments := [] } := by
    rw [hcode, scan, BuildPlan.layout, BuildLayout.generatedDir, BuildLayout.manifest,
      take_join_root h.outputName hgenerated,
      scan_value fun _ _ => take_of_no_dash (by decide),
      scan_value fun _ _ => take_of_no_dash h.outputName,
      scan_value fun _ _ => take_of_no_dash htarget,
      scan_value (take_join_root h.outputName hmanifest),
      scan_value fun _ _ => take_of_no_dash h.temporaryDir,
      scan_stubArguments h.outputName, scan_libraries h.libraries,
      scan_repositories_append h.repositories, scan_switches _ _ rfl rfl]
    rfl
  rw [parse, hscan]

end BuildRequest

/-- **The compiler is asked for what the request asked for**: what the first stage hands it, when no
arguments came back, reads as the same output, libraries, repositories, directory and switches, and as
a target that is resolved to the same one. -/
theorem invoke_compilerArguments {t : Tree} {host : Target} {defaultsDir : Option Path}
    {importer : HeaderImporter} {flavor : String} {arguments : List String} {invocation : Invocation}
    (h : (invoke t host defaultsDir importer flavor arguments).result = .ok invocation)
    (hnone : ∀ extra, importer flavor invocation.importArguments = .ok extra → extra.getD [] = [])
    (hflags : (BuildRequest.parse arguments).NoFlags) :
    BuildRequest.parse invocation.compilerArguments =
        { BuildRequest.parse arguments with
          target := invocation.target.visibleName, arguments := invocation.compilerArguments } ∧
      host.resolve invocation.target.visibleName = .ok invocation.target ∧
      host.resolve (BuildRequest.parse arguments).target = .ok invocation.target := by
  unfold invoke at h
  split at h
  · cases h
  · rename_i plan hplan
    obtain ⟨extra, hextra, rfl⟩ := except_map_eq_ok.1 h
    obtain ⟨target, htarget, hplan⟩ := except_bind_eq_ok.1 hplan
    obtain ⟨libraries, -, hplan⟩ := except_bind_eq_ok.1 hplan
    obtain rfl := Except.ok.inj hplan
    rw [hnone extra hextra]
    exact ⟨BuildRequest.parse_compilerArguments_plan hflags flavor, Target.resolve_visibleName ..,
      htarget⟩

/-- A build with every setting, for a target by its alias. -/
theorem invoke_compilerArguments_sdl :
    let t := treeOf [("sdl", "package=sdl\ndepends=posix"), ("posix", "package=platform.posix")]
    let arguments := ["-nodefaultlibs", "-library", "sdl", "-o", "out/sdl", "-library", "posix",
      "-target", " Linux ", "-r", "/libs", "--temporary_files_dir", "/tmp", "--purge_user_libs"]
    let importer : HeaderImporter := fun _ _ => .ok none
    ∃ invocation, (invoke t .macosX64 none importer "native" arguments).result = .ok invocation ∧
      (∀ extra, importer "native" invocation.importArguments = .ok extra → extra.getD [] = []) ∧
      (BuildRequest.parse arguments).NoFlags ∧
      BuildRequest.parse invocation.compilerArguments =
        { outputName := "out/sdl", target := "linux_x64", libraries := ["sdl", "posix"],
          repositories := ["/libs"], dropDefaults := true, purgeUserLibraries := true,
          temporaryDir := "/tmp", arguments := invocation.compilerArguments } := by
  intro t arguments importer
  have htarget : (invoke t .macosX64 none importer "native" arguments).result.map (·.target) =
      .ok .linuxX64 := by decide +kernel
  obtain ⟨invocation, h, hlinux⟩ := except_map_eq_ok.1 htarget
  have hnone : ∀ extra, importer "native" invocation.importArguments = .ok extra →
      extra.getD [] = [] := fun _ h => Except.ok.inj h ▸ rfl
  have hflags : (BuildRequest.parse arguments).NoFlags := by decide
  refine ⟨invocation, h, hnone, hflags, ?_⟩
  rw [(invoke_compilerArguments h hnone hflags).1, hlinux]
  rfl

end SymbolAtlas
