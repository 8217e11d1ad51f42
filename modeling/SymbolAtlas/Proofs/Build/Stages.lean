import SymbolAtlas.Build.Stages
import SymbolAtlas.Proofs.Build.Resolution
import SymbolAtlas.Proofs.Files

/-!
# The calls of a build

Which programs a build calls, in which order and with which arguments, and that it depends on what
these calls answer and on no other:

* `make_eq_ok`: what is settled before any program is called;
* `resolve_ordered`: of the libraries, each comes after all that it lists;
* `runBuildWith_staged`: nothing is called unless the target and the libraries are resolved; then the
  tool that imports headers is called, and after it the compiler if nothing is in the way.
-/

namespace SymbolAtlas

open Files LibrarySearch

/-! ## What is settled first -/

namespace LibrarySearch

variable {s : LibrarySearch} {t : Tree} {names : List String} {libs : List ResolvedLibrary}

/-- What a library lists stands before it. -/
theorem resolve_ordered (h : s.resolve t names = .ok libs) {before after : List ResolvedLibrary}
    {l : ResolvedLibrary} (hsplit : libs = before ++ l :: after) {name : String}
    (hname : name ∈ l.manifest.depends) : s.Covers t before (dependency name) := by
  obtain ⟨c, hc, harrange⟩ := except_bind_eq_ok.1 h
  have hcomplete := collect_complete hc
  unfold arrange at harrange
  split at harrange
  · rename_i order horder
    have ho := DependencyGraph.order_ok hcomplete.bounded horder
    exact hcomplete.covers_before ho ((Except.ok.inj harrange).trans hsplit) hname
  · cases harrange

end LibrarySearch

/-- The text of a place below the root of a build. -/
theorem BuildLayout.text_join_root (outputName : String) {name : String} (hname : Path.IsName name) :
    ((ofOutput outputName).root.join name).text = outputName ++ "-build/" ++ name := by
  have hlast : (outputName ++ "-build").toList.getLast? = some 'd' := by
    simp
  have hne : outputName ++ "-build" ≠ "" := by simp
  rcases Path.text_join (p := ⟨outputName ++ "-build"⟩) hne hname with ⟨hslash, -⟩ | htext
  · cases hlast.symm.trans hslash
  · exact htext.trans (by simp [String.append_assoc])

namespace BuildOptions

/-- What a build asks for, of the configured repositories too. -/
def request (o : BuildOptions) (arguments : List String) : BuildRequest :=
  .parse (o.effectiveArguments arguments)

/-- Where a build looks for libraries that can be used on `target`. -/
def search (o : BuildOptions) (arguments : List String) (target : Target) : LibrarySearch where
  repositories := (o.request arguments).repositories.map Files.Path.mk
  target := target
  defaultsDir := o.config.interop.defaultsDir.map Files.Path.mk
  dropDefaults := (o.request arguments).dropDefaults

/-- On the machine `host`, the build is one for `target` with these libraries. -/
structure Resolves (o : BuildOptions) (t : Tree) (host : Target) (arguments : List String)
    (target : Target) (libraries : List ResolvedLibrary) : Prop where
  resolvedTarget : host.resolve (o.request arguments).target = .ok target
  resolvedLibraries :
    (o.search arguments target).resolve t (o.request arguments).libraries = .ok libraries

/-- The arguments for the tool that imports headers: a fixed front, the directives, and all that is
given but the two switches. -/
def headerArguments (o : BuildOptions) (arguments directives : List String) : List String :=
  let dir := (o.request arguments).outputName ++ "-build/"
  ["-generated", dir ++ "kotlin", "-natives", dir ++ "natives", "-cstubsname", "cstubs",
    "-manifest", dir ++ "manifest.properties", "-flavor", o.effectiveFlavor,
    "-temporaryFilesDir", (o.request arguments).temporaryDir] ++
    directives ++
    (o.effectiveArguments arguments).filter fun a => a ≠ "-nodefaultlibs" && a ≠ "--purge_user_libs"

variable {o : BuildOptions} {t : Tree} {host : Target} {arguments : List String} {target : Target}
  {libraries : List ResolvedLibrary}

def plan (o : BuildOptions) (arguments : List String) (target : Target)
    (libraries : List ResolvedLibrary) : BuildPlan :=
  ⟨o.request arguments, target, libraries⟩

theorem make_eq_ok {plan : BuildPlan} :
    BuildPlan.make t host (o.config.interop.defaultsDir.map Files.Path.mk)
        (o.effectiveArguments arguments) = .ok plan ↔
      ∃ target libraries, o.Resolves t host arguments target libraries ∧
        plan = o.plan arguments target libraries := by
  constructor
  · intro h
    obtain ⟨target, htarget, h⟩ := except_bind_eq_ok.1 h
    obtain ⟨libraries, hlibraries, h⟩ := except_bind_eq_ok.1 h
    exact ⟨target, libraries, ⟨htarget, hlibraries⟩, (Except.ok.inj h).symm⟩
  · rintro ⟨target, libraries, ⟨htarget, hlibraries⟩, rfl⟩
    exact except_bind_eq_ok.2 ⟨target, htarget, except_bind_eq_ok.2 ⟨libraries, hlibraries, rfl⟩⟩

theorem importArguments_plan (o : BuildOptions) (arguments : List String) (target : Target)
    (libraries : List ResolvedLibrary) :
    (o.plan arguments target libraries).importArguments o.effectiveFlavor =
      o.headerArguments arguments (importDirectives libraries) := by
  have hname : ∀ name ∈ ["kotlin", "natives", "manifest.properties"], Path.IsName name := by
    intro name hmem
    simp only [List.mem_cons, List.not_mem_nil, or_false] at hmem
    rcases hmem with rfl | rfl | rfl <;> exact ⟨by decide, by decide, by decide⟩
  simp only [BuildPlan.importArguments, headerArguments, BuildPlan.layout, BuildLayout.generatedDir,
    BuildLayout.nativesDir, BuildLayout.manifest,
    BuildLayout.text_join_root _ (hname "kotlin" (by decide)),
    BuildLayout.text_join_root _ (hname "natives" (by decide)),
    BuildLayout.text_join_root _ (hname "manifest.properties" (by decide))]
  rfl

/-! ## The calls -/

def importCall (o : BuildOptions) (arguments directives : List String) : Call :=
  .importHeaders o.effectiveFlavor (o.headerArguments arguments directives)

def firstStage (o : BuildOptions) (t : Tree) (host : Target) (importer : HeaderImporter)
    (arguments : List String) : Run BuildError Invocation :=
  invoke t host (o.config.interop.defaultsDir.map Files.Path.mk) importer o.effectiveFlavor
    (o.effectiveArguments arguments)

/-- Nothing is called when the target or the libraries are not resolved. -/
theorem firstStage_unresolved (h : ¬ ∃ target libraries, o.Resolves t host arguments target libraries) :
    ∃ e, ∀ importer, o.firstStage t host importer arguments = ⟨[], .error e⟩ := by
  unfold firstStage invoke
  split
  · exact ⟨_, fun _ => rfl⟩
  · rename_i plan hplan
    obtain ⟨target, libraries, hresolves, -⟩ := make_eq_ok.1 hplan
    exact absurd ⟨target, libraries, hresolves⟩ h

/-- Otherwise the tool is called once, and there is an invocation when it succeeds. -/
theorem firstStage_resolved (importer : HeaderImporter)
    (h : o.Resolves t host arguments target libraries) :
    o.firstStage t host importer arguments =
      ⟨[o.importCall arguments (importDirectives libraries)],
        (importer o.effectiveFlavor
          (o.headerArguments arguments (importDirectives libraries))).map fun extra =>
          (o.plan arguments target libraries).invocation o.effectiveFlavor (extra.getD [])⟩ := by
  have hplan := make_eq_ok.2 ⟨target, libraries, h, rfl⟩
  simp only [firstStage, invoke, hplan, importArguments_plan, importCall]

end BuildOptions

section

variable {programs programs' : Programs} {calls : List Call} {invocation i : Invocation}
  {program : String}

theorem calls_compile : (compile programs calls invocation program).calls =
    calls ++ [.produce program invocation.compilerArguments] := by
  simp only [compile]
  split
  · rfl
  · split <;> rfl

theorem eq_of_compile_ok (h : (compile programs calls invocation program).result = .ok i) :
    i = invocation := by
  simp only [compile] at h
  split at h
  · cases h
  · split at h
    · exact (Except.ok.inj h).symm
    · cases h

theorem compile_congr
    (h : programs.status { program, arguments := invocation.compilerArguments } =
      programs'.status { program, arguments := invocation.compilerArguments }) :
    compile programs calls invocation program = compile programs' calls invocation program := by
  simp only [compile, h]

end

/-- Whether what is called answers in the same way. -/
def Call.Agrees (importer importer' : HeaderImporter) (programs programs' : Programs) : Call → Prop
  | .importHeaders flavor arguments => importer flavor arguments = importer' flavor arguments
  | .produce program arguments =>
    programs.status { program, arguments } = programs'.status { program, arguments }

namespace BuildOptions

variable {o : BuildOptions} {t : Tree} {host : Target} {programs programs' : Programs}
  {importer importer' : HeaderImporter} {arguments : List String} {target : Target}
  {libraries : List ResolvedLibrary}

/-- What a build does after its first stage. -/
theorem runBuildWith_cases (o : BuildOptions) (t : Tree) (host : Target) (programs : Programs)
    (importer : HeaderImporter) (arguments : List String) :
    let first := o.firstStage t host importer arguments
    let run := runBuildWith t host programs o importer arguments
    (∃ e, first.result = .error e ∧ run = ⟨first.calls, .error (.build e), {}⟩) ∨
      ∃ invocation, first.result = .ok invocation ∧
        ((o.printOnly = true ∧ run = ⟨first.calls, .ok invocation, {}⟩) ∨
          (o.printOnly = false ∧ o.config.interop.compiler = none ∧ run.calls = first.calls ∧
            ∀ i, run.result ≠ .ok i) ∨
          ∃ program, o.printOnly = false ∧ o.config.interop.compiler = some program ∧
            run = compile programs first.calls invocation program) := by
  simp only [runBuildWith, firstStage]
  generalize invoke t host (o.config.interop.defaultsDir.map Files.Path.mk) importer o.effectiveFlavor
    (o.effectiveArguments arguments) = first
  obtain ⟨calls, e | invocation⟩ := first
  · exact .inl ⟨e, rfl, rfl⟩
  · refine .inr ⟨invocation, rfl, ?_⟩
    cases hprint : o.printOnly with
    | true => exact .inl ⟨rfl, rfl⟩
    | false =>
      cases hcompiler : o.config.interop.compiler with
      | none => exact .inr (.inl ⟨rfl, rfl, rfl, nofun⟩)
      | some program => exact .inr (.inr ⟨program, rfl, rfl, rfl⟩)

/-- Beyond its first stage, a build depends on the answer to its own call of the compiler alone. -/
theorem runBuildWith_congr
    (hfirst : o.firstStage t host importer' arguments = o.firstStage t host importer arguments)
    (hproduce : ∀ program arguments',
      .produce program arguments' ∈ (runBuildWith t host programs o importer arguments).calls →
        programs.status { program, arguments := arguments' } =
          programs'.status { program, arguments := arguments' }) :
    runBuildWith t host programs' o importer' arguments =
      runBuildWith t host programs o importer arguments := by
  unfold firstStage at hfirst
  revert hproduce
  simp only [runBuildWith, hfirst]
  split
  · exact fun _ => rfl
  · split
    · exact fun _ => rfl
    · split
      · exact fun hproduce => (compile_congr (hproduce _ _ (by simp [calls_compile]))).symm
      · exact fun _ => rfl

/-- What follows the call of the tool that imports headers for `target`, with these libraries and
their directives, when the first stage comes to `first`. -/
structure Staged (o : BuildOptions) (importer : HeaderImporter) (arguments : List String)
    (target : Target) (libraries : List ResolvedLibrary) (directives : List String)
    (first : Except BuildError Invocation) (further : List Call) : Prop where
  /-- The first stage comes to an invocation exactly when the tool succeeds. -/
  succeeds : (∃ invocation, first = .ok invocation) ↔
    ∃ extra, importer o.effectiveFlavor (o.headerArguments arguments directives) = .ok extra
  /-- The invocation is for what is resolved, and says what the tool is called with. -/
  invocation : ∀ invocation, first = .ok invocation →
    invocation.target = target ∧ invocation.libraries = libraries ∧
      invocation.importArguments = o.headerArguments arguments directives
  /-- The compiler is called with the arguments of the invocation. -/
  produces : ∀ invocation, first = .ok invocation → ∀ program,
    further = [.produce program invocation.compilerArguments] ↔
      o.printOnly = false ∧ o.config.interop.compiler = some program
  /-- Nothing is called when something is in the way. -/
  stops : further = [] ↔ (∀ invocation, first ≠ .ok invocation) ∨ o.printOnly = true ∨
    o.config.interop.compiler = none

theorem exists_staged (importer : HeaderImporter) (programs : Programs)
    (h : o.Resolves t host arguments target libraries) :
    ∃ directives further, Directs libraries directives ∧
      (runBuildWith t host programs o importer arguments).calls =
        o.importCall arguments directives :: further ∧
      o.Staged importer arguments target libraries directives
        (o.firstStage t host importer arguments).result further := by
  have hfirst := firstStage_resolved importer h
  have himport := importArguments_plan o arguments target libraries
  generalize hdirectives : importDirectives libraries = directives at hfirst himport
  have hdirects := directs_iff.2 hdirectives.symm
  have hcalls := congrArg Run.calls hfirst
  have hsucceeds : (∃ invocation, (o.firstStage t host importer arguments).result = .ok invocation) ↔
      ∃ extra, importer o.effectiveFlavor (o.headerArguments arguments directives) = .ok extra := by
    simp [hfirst, except_map_eq_ok]
  have hinvocation : ∀ invocation, (o.firstStage t host importer arguments).result = .ok invocation →
      invocation.target = target ∧ invocation.libraries = libraries ∧
        invocation.importArguments = o.headerArguments arguments directives := by
    intro invocation hok
    rw [hfirst, except_map_eq_ok] at hok
    obtain ⟨extra, -, rfl⟩ := hok
    exact ⟨rfl, rfl, himport⟩
  have hstopped (hstop : (∀ i, (o.firstStage t host importer arguments).result ≠ .ok i) ∨
      o.printOnly = true ∨ o.config.interop.compiler = none) :
      o.Staged importer arguments target libraries directives
        (o.firstStage t host importer arguments).result [] := by
    refine ⟨hsucceeds, hinvocation, fun invocation hok program => iff_of_false nofun ?_,
      iff_of_true rfl hstop⟩
    rintro ⟨hprint, hprogram⟩
    rcases hstop with hfails | hprint' | hnone
    · exact hfails invocation hok
    · cases hprint.symm.trans hprint'
    · cases hprogram.symm.trans hnone
  rcases runBuildWith_cases o t host programs importer arguments with
    ⟨e, herror, hrun⟩ | ⟨invocation, hok, ⟨hprint, hrun⟩ | ⟨-, hnone, hrun, -⟩ | ⟨program, hprint,
      hprogram, hrun⟩⟩
  · exact ⟨directives, [], hdirects, by rw [hrun, hcalls], hstopped (.inl (by simp [herror]))⟩
  · exact ⟨directives, [], hdirects, by rw [hrun, hcalls], hstopped (.inr (.inl hprint))⟩
  · exact ⟨directives, [], hdirects, by rw [hrun, hcalls], hstopped (.inr (.inr hnone))⟩
  · refine ⟨directives, [.produce program invocation.compilerArguments], hdirects,
      by rw [hrun, calls_compile, hcalls]; rfl, hsucceeds, hinvocation, ?_, iff_of_false (by simp) ?_⟩
    · intro i hi program'
      obtain rfl := Except.ok.inj (hok.symm.trans hi)
      simp [hprint, hprogram]
    · simp [hok, hprint, hprogram]

theorem calls_of_unresolved (programs : Programs) (importer : HeaderImporter)
    (h : ¬ ∃ target libraries, o.Resolves t host arguments target libraries) :
    (runBuildWith t host programs o importer arguments).calls = [] := by
  obtain ⟨e, hfirst⟩ := firstStage_unresolved h
  rcases runBuildWith_cases o t host programs importer arguments with
    ⟨e, -, hrun⟩ | ⟨invocation, hok, -⟩
  · rw [hrun, hfirst]
  · rw [hfirst] at hok
    cases hok

/-- What comes of a build is the invocation of its first stage. -/
theorem firstStage_of_ok {invocation : Invocation}
    (h : (runBuildWith t host programs o importer arguments).result = .ok invocation) :
    (o.firstStage t host importer arguments).result = .ok invocation := by
  rcases runBuildWith_cases o t host programs importer arguments with
    ⟨e, -, hrun⟩ | ⟨i, hok, ⟨-, hrun⟩ | ⟨-, -, -, hfails⟩ | ⟨program, -, -, hrun⟩⟩
  · rw [hrun] at h
    cases h
  · rw [hrun] at h
    obtain rfl := Except.ok.inj h
    exact hok
  · exact absurd h (hfails invocation)
  · rw [hrun] at h
    exact eq_of_compile_ok h ▸ hok

theorem runBuildWith_agrees (h : ∀ call ∈ (runBuildWith t host programs o importer arguments).calls,
    call.Agrees importer importer' programs programs') :
    runBuildWith t host programs' o importer' arguments =
      runBuildWith t host programs o importer arguments := by
  refine runBuildWith_congr ?_ fun program arguments' hmem => h _ hmem
  by_cases hresolves : ∃ target libraries, o.Resolves t host arguments target libraries
  · obtain ⟨target, libraries, hresolves⟩ := hresolves
    obtain ⟨directives, further, hdirects, hcalls, -⟩ := exists_staged importer programs hresolves
    obtain rfl := directs_iff.1 hdirects
    have himport : importer o.effectiveFlavor (o.headerArguments arguments (importDirectives libraries)) =
        importer' o.effectiveFlavor (o.headerArguments arguments (importDirectives libraries)) :=
      h (o.importCall arguments (importDirectives libraries)) (by rw [hcalls]; exact List.mem_cons_self)
    rw [firstStage_resolved importer hresolves, firstStage_resolved importer' hresolves, himport]
  · obtain ⟨e, hfirst⟩ := firstStage_unresolved hresolves
    rw [hfirst, hfirst]

/-- **The programs are called in order, and only when nothing is in the way.** No program is called
exactly when the target or the libraries are not resolved. Otherwise the tool that imports headers is
called once, with the directives of the libraries in the order of their dependencies, and then the
compiler if `Staged` says so. What comes of a build is its invocation, and depends on what these calls
answer alone. -/
theorem runBuildWith_staged (t : Tree) (host : Target) (programs : Programs) (o : BuildOptions)
    (importer : HeaderImporter) (arguments : List String) :
    let run := runBuildWith t host programs o importer arguments
    let first := (o.firstStage t host importer arguments).result
    (run.calls = [] ↔ ¬ ∃ target libraries, o.Resolves t host arguments target libraries) ∧
      (∀ target libraries, o.Resolves t host arguments target libraries →
        (∀ before l after, libraries = before ++ l :: after → ∀ name ∈ l.manifest.depends,
          (o.search arguments target).Covers t before (dependency name)) ∧
        ∃ directives further, Directs libraries directives ∧
          run.calls = o.importCall arguments directives :: further ∧
          o.Staged importer arguments target libraries directives first further) ∧
      (∀ invocation, run.result = .ok invocation → first = .ok invocation) ∧
      ∀ importer' programs', (∀ call ∈ run.calls, call.Agrees importer importer' programs programs') →
        runBuildWith t host programs' o importer' arguments = run := by
  intro run first
  refine ⟨⟨fun hnone => ?_, calls_of_unresolved programs importer⟩,
    fun target libraries h => ⟨?_, exists_staged importer programs h⟩,
    fun _ hok => firstStage_of_ok hok, fun _ _ hagrees => runBuildWith_agrees hagrees⟩
  · rintro ⟨target, libraries, h⟩
    obtain ⟨_, _, -, hcalls, -⟩ := exists_staged importer programs h
    cases hnone.symm.trans hcalls
  · exact fun _ _ _ hsplit _ hname => resolve_ordered h.resolvedLibraries hsplit hname

/-- A build with two libraries, of which one depends on the other: both have a directive, and only one
has headers. The switch is not handed on. -/
theorem runBuildWith_staged_sdl :
    let t := treeOf [("sdl", "package=sdl\nincludedHeaders=SDL.h SDL_video.h\ndepends=posix"),
      ("posix", "package=platform.posix")]
    let o : BuildOptions :=
      { flavor := some "wasm", config.interop.repositories := ["/libs"],
        config.interop.compiler := some "klib" }
    let importer : HeaderImporter := fun _ _ => .ok (some ["-lSDL2"])
    let arguments := ["-nodefaultlibs", "-library", "sdl"]
    ∃ libraries, o.Resolves t .linuxX64 arguments .linuxX64 libraries ∧
      libraries.map (·.name) = ["posix", "sdl"] ∧
      ∀ programs, ∃ invocation : Invocation,
        (runBuildWith t .linuxX64 programs o importer arguments).calls =
          [.importHeaders "wasm" ["-generated", "nativelib-build/kotlin", "-natives",
              "nativelib-build/natives", "-cstubsname", "cstubs", "-manifest",
              "nativelib-build/manifest.properties", "-flavor", "wasm", "-temporaryFilesDir", "",
              "-import", "platform.posix:", "-import", "sdl:SDL.h;SDL_video.h", "-library", "sdl",
              "-repo", "/libs"],
            .produce "klib" invocation.compilerArguments] := by
  intro t o importer arguments
  have hresolved : ((o.search arguments .linuxX64).resolve t ["sdl"]).map (fun libraries =>
      (libraries.map (·.name), importDirectives libraries)) = .ok (["posix", "sdl"],
        ["-import", "platform.posix:", "-import", "sdl:SDL.h;SDL_video.h"]) := by decide +kernel
  obtain ⟨libraries, hlibraries, hmap⟩ := except_map_eq_ok.1 hresolved
  obtain ⟨hnames, hdirectives⟩ := Prod.mk.inj hmap
  have h : o.Resolves t .linuxX64 arguments .linuxX64 libraries := ⟨by decide, hlibraries⟩
  refine ⟨libraries, h, hnames, fun programs => ?_⟩
  obtain ⟨-, directives, further, hdirects, hcalls, hstaged⟩ :=
    (runBuildWith_staged t .linuxX64 programs o importer arguments).2.1 _ _ h
  obtain rfl := (directs_iff.1 hdirects).trans hdirectives
  obtain ⟨invocation, hok⟩ := hstaged.succeeds.2 ⟨some ["-lSDL2"], rfl⟩
  have hfurther := (hstaged.produces invocation hok "klib").2 ⟨rfl, rfl⟩
  refine ⟨invocation, hcalls.trans ?_⟩
  rw [hfurther]
  exact congrArg (· :: _) (by decide +kernel)

end BuildOptions

end SymbolAtlas
