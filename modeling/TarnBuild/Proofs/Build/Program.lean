import TarnBuild.Build.Program
import TarnBuild.Proofs.Build.Directory
import TarnBuild.Proofs.Build.Failure
import TarnBuild.Proofs.Build.Schedule

/-!
# Stages of a build

A build from a directory fails with a fault of the first stage that has one:
the settings, the directory, the identifiers of its sources, what they hold,
and the way their units go together.  When no stage has a fault, the program
root holds one body for each source, that of the unit in its file.
-/

namespace TarnBuild

variable {schedule : SourceSet → List Nat} {enumerate : Units → Graph String}
  {system : FileSystem} {config : BuildConfig} {root : String}

/-! ## Errors of the stages -/

/-- The sources of every origin have distinct identifiers. -/
theorem SourceInput.isCollected_of_acquire
    {input : SourceInput} {sources : SourceSet}
    (acquired : input.acquire system config = .ok sources) :
    sources.IsCollected system := by
  cases input with
  | directory path => exact .directory path _ sources acquired
  | file path => exact .file path sources acquired
  | text content =>
      cases acquired
      exact .text content

theorem SourceInput.acquire_ne_internal (input : SourceInput) (fault : InternalFault) :
    input.acquire system config ≠ .error (.internal fault) := by
  intro failed
  cases input with
  | directory path =>
      simp only [acquire, SourceSet.discover] at failed
      split at failed
      · rcases Except.bind_eq_error_iff.1 failed with failed | ⟨_, _, failed⟩
        · rcases SourceSet.exists_of_distinctFiles_nil_eq_error failed with
            ⟨_, _, _, _, _, _, _, _, same⟩
          cases same
        · cases failed
      · cases failed
  | file path =>
      simp only [acquire, SourceSet.ofFile] at failed
      split at failed <;> cases failed
  | text content => cases failed

/-! ## Loading -/

/-- Faulty settings are found before any source is looked for. -/
theorem loadUnitsAlong_eq_error_of_validate
    {fault : ConfigFault}
    (invalid : config.validate = .error fault) (input : SourceInput) :
    loadUnitsAlong schedule system config input = .error (.badConfig fault) := by
  simp [loadUnitsAlong, BuildConfig.check, invalid, Except.mapError, bind, Except.bind]

section Valid

variable {input : SourceInput} (valid : config.validate = .ok ())

include valid

theorem loadUnitsAlong_eq_error_of_acquire
    {error : BuildError}
    (failed : input.acquire system config = .error error) :
    loadUnitsAlong schedule system config input = .error error := by
  simp [loadUnitsAlong, BuildConfig.check, valid, failed, Except.mapError, bind, Except.bind]

/-- Once the settings are checked and the sources found, they are all read. -/
theorem isReading_loadUnitsAlong
    {sources : SourceSet}
    (scheduled : (schedule sources).Perm sources.inOrder)
    (acquired : input.acquire system config = .ok sources) :
    sources.IsReading system (loadUnitsAlong schedule system config input) := by
  have loaded : loadUnitsAlong schedule system config input =
      if config.build.parallel then
        sources.readAllAlong system (schedule sources)
      else
        sources.readAll system := by
    simp [loadUnitsAlong, BuildConfig.check, valid, acquired, Except.mapError, bind, Except.bind]
  rw [loaded]
  split
  · exact SourceSet.isReading_readAllAlong scheduled
  · exact SourceSet.isReading_readAll system sources

end Valid

/-- A build that follows a schedule does not contradict itself. -/
theorem loadUnitsAlong_ne_internal
    (scheduled : ∀ sources, (schedule sources).Perm sources.inOrder)
    (input : SourceInput) (fault : InternalFault) :
    loadUnitsAlong schedule system config input ≠ .error (.internal fault) := by
  cases valid : config.validate with
  | error fault =>
      rw [loadUnitsAlong_eq_error_of_validate valid]
      simp
  | ok =>
      cases acquired : input.acquire system config with
      | error error =>
          rw [loadUnitsAlong_eq_error_of_acquire valid acquired]
          rintro same
          cases same
          exact input.acquire_ne_internal fault acquired
      | ok sources =>
          have isReading := isReading_loadUnitsAlong valid (scheduled sources) acquired
          rcases isReading.eq_ok_or_eq_error (SourceInput.isCollected_of_acquire acquired).isDistinct with
            ⟨_, units, _, _, loaded⟩ | ⟨file, _, error, failed, loaded⟩
          · simp [loaded]
          · rw [loaded]
            rintro same
            cases same
            exact (SourceFile.read_eq_error_iff.1 failed).ne_internal fault rfl

/-! ## Builds from a directory -/

/-- Units are those of some files, each under the identifier of its file. -/
def HoldUnits (root : String) (files : List FoundFile) (units : Units) : Prop :=
  ∃ pairs : List (String × CompilationUnit),
    List.Forall₂ (fun file pair => pair.1 = file.identifier ∧ file.unit root = .ok pair.2)
      files pairs ∧
    units.entries.Perm pairs

/-- Sources below a directory are read without a fault: the settings are valid,
there is a directory, the files are the sources below it, no two of them with
one identifier, and the units are what they hold. -/
structure Loads (system : FileSystem) (config : BuildConfig) (root : String)
    (entries : List (String × Node)) (files : List FoundFile) (units : Units) : Prop where
  valid : config.validate = .ok ()
  isDirectory : system.node? root = some (.directory entries)
  unique : ¬ FoundFile.HasDuplicate config.build.extension (.directory entries)
  distinct : files.Nodup
  mem_iff : ∀ file, file ∈ files ↔
    file.IsSource config.build.extension (.directory entries)
  holds : HoldUnits root files units

/-- An error says what is at fault when sources are read from a directory, and
nothing that comes earlier in the order of stages is at fault. -/
inductive FailsToLoad (system : FileSystem) (config : BuildConfig) (root : String) :
    BuildError → Prop where
  | settings (fault : ConfigFault)
      (invalid : config.validate = .error fault) :
      FailsToLoad system config root (.badConfig fault)
  | directory
      (valid : config.validate = .ok ())
      (noDirectory : ∀ entries, system.node? root ≠ some (.directory entries)) :
      FailsToLoad system config root (.unusableFile root .noSourceDirectory)
  /-- Two files share an identifier, wherever they lie and whatever they hold. -/
  | identifiers (entries : List (String × Node)) (first second : FoundFile)
      (valid : config.validate = .ok ())
      (isDirectory : system.node? root = some (.directory entries))
      (isFirst : first.IsSource config.build.extension (.directory entries))
      (isSecond : second.IsSource config.build.extension (.directory entries))
      (different : first.names ≠ second.names)
      (same : first.identifier = second.identifier) :
      FailsToLoad system config root
        (.duplicateFile first.identifier (first.path root) (second.path root))
  /-- Of several files that cannot be read it speaks of any. -/
  | content (entries : List (String × Node)) (file : FoundFile) (error : BuildError)
      (valid : config.validate = .ok ())
      (isDirectory : system.node? root = some (.directory entries))
      (unique : ¬ FoundFile.HasDuplicate config.build.extension (.directory entries))
      (isSource : file.IsSource config.build.extension (.directory entries))
      (failed : file.unit root = .error error) :
      FailsToLoad system config root error

/-- Distinct sources below a directory are all read, unless one is at fault. -/
theorem loadUnitsAlong_directory_of_unique
    {entries : List (String × Node)}
    (isTree : system.root.IsTree)
    (scheduled : ∀ sources, (schedule sources).Perm sources.inOrder)
    (valid : config.validate = .ok ())
    (isDirectory : system.node? root = some (.directory entries))
    (unique : ¬ FoundFile.HasDuplicate config.build.extension (.directory entries)) :
    (∃ file : FoundFile, file.IsSource config.build.extension (.directory entries) ∧
        ∃ error, file.unit root = .error error ∧
          loadUnitsAlong schedule system config (.directory root) = .error error) ∨
      ∃ units, HoldUnits root
          (FoundFile.sources config.build.extension (.directory entries)) units ∧
        loadUnitsAlong schedule system config (.directory root) = .ok units := by
  have isBelowTree := FileSystem.isTree_of_node? isTree isDirectory
  have acquired : SourceInput.acquire system config (.directory root) = .ok _ :=
    (FoundFile.discover_eq_ok_iff isBelowTree isDirectory).2 ⟨unique, rfl⟩
  have isReading := isReading_loadUnitsAlong valid (scheduled _) acquired
  rcases isReading.eq_ok_or_eq_error (SourceInput.isCollected_of_acquire acquired).isDistinct with
    ⟨results, units, read, perm, loaded⟩ | ⟨_, isMember, error, failed, loaded⟩
  · refine .inr ⟨units, ⟨results, ?_, perm⟩, loaded⟩
    have isSource : ∀ file ∈ FoundFile.sources config.build.extension (.directory entries),
        file.IsSource config.build.extension (.directory entries) :=
      fun file => (FoundFile.mem_sources_iff isBelowTree).1
    have readSources := (List.forall₂_and_left _ _).2 ⟨isSource, List.forall₂_map_left_iff.1 read⟩
    -- The path of a source leads to its file, so the file alone says what is read.
    refine readSources.imp fun file result readSource => ?_
    rcases readSource with ⟨isSource, read⟩
    rw [FoundFile.read_sourceAt_entry isTree isDirectory isSource] at read
    rcases Except.bind_eq_ok_iff.1 read with ⟨unit, parsed, same⟩
    cases same
    exact ⟨rfl, parsed⟩
  · rcases List.mem_map.1 isMember with ⟨file, isFound, rfl⟩
    have isSource := (FoundFile.mem_sources_iff isBelowTree).1 isFound
    rw [FoundFile.read_sourceAt_entry isTree isDirectory isSource] at failed
    rcases Except.bind_eq_error_iff.1 failed with failed | ⟨_, _, failed⟩
    · exact .inl ⟨file, isSource, error, failed, loaded⟩
    · cases failed

theorem loadUnitsAlong_directory
    (isTree : system.root.IsTree)
    (scheduled : ∀ sources, (schedule sources).Perm sources.inOrder) :
    (∃ error, loadUnitsAlong schedule system config (.directory root) = .error error ∧
        FailsToLoad system config root error) ∨
      ∃ entries files units,
        loadUnitsAlong schedule system config (.directory root) = .ok units ∧
          Loads system config root entries files units := by
  cases valid : config.validate with
  | error fault =>
      exact .inl ⟨_, loadUnitsAlong_eq_error_of_validate valid _, .settings fault valid⟩
  | ok =>
  by_cases isDirectory : ∃ entries, system.node? root = some (.directory entries)
  · rcases isDirectory with ⟨entries, isDirectory⟩
    have isBelowTree := FileSystem.isTree_of_node? isTree isDirectory
    cases acquired : SourceInput.acquire system config (.directory root) with
    | error error =>
        rcases FoundFile.exists_of_discover_eq_error isBelowTree isDirectory acquired with
          ⟨first, second, isFirst, isSecond, different, same, rfl⟩
        exact .inl ⟨_, loadUnitsAlong_eq_error_of_acquire valid acquired,
          .identifiers entries first second valid isDirectory isFirst isSecond different same⟩
    | ok sources =>
        have unique := ((FoundFile.discover_eq_ok_iff isBelowTree isDirectory).1 acquired).1
        rcases loadUnitsAlong_directory_of_unique isTree scheduled valid isDirectory unique with
          ⟨file, isSource, error, failed, loaded⟩ | ⟨units, holds, loaded⟩
        · exact .inl ⟨error, loaded,
            .content entries file error valid isDirectory unique isSource failed⟩
        · exact .inr ⟨entries, _, units, loaded, valid, isDirectory, unique,
            FoundFile.nodup_sources isBelowTree,
            fun _ => FoundFile.mem_sources_iff isBelowTree, holds⟩
  · have noDirectory := not_exists.1 isDirectory
    exact .inl ⟨_, loadUnitsAlong_eq_error_of_acquire valid
      (FoundFile.discover_eq_error_of_noDirectory noDirectory), .directory valid noDirectory⟩

/-! ### One outcome -/

variable {entries : List (String × Node)} {files : List FoundFile} {units : Units}

theorem HoldUnits.get?_eq_some_iff
    {name : String} {unit : CompilationUnit}
    (holds : HoldUnits root files units) :
    units.get? name = some unit ↔
      ∃ file ∈ files, file.identifier = name ∧ file.unit root = .ok unit := by
  rcases holds with ⟨pairs, read, perm⟩
  rw [NameMap.get?_eq_some_iff, perm.mem_iff]
  clear perm
  induction read with
  | nil => simp
  | cons isRead _ ih =>
      rcases isRead with ⟨sameName, parsed⟩
      simp [ih, Prod.ext_iff, sameName, parsed, eq_comm]

theorem HoldUnits.exists_unit
    {file : FoundFile}
    (holds : HoldUnits root files units)
    (isMember : file ∈ files) :
    ∃ unit, file.unit root = .ok unit := by
  rcases holds with ⟨pairs, read, _⟩
  rcases exists_of_forall₂_of_mem read isMember with ⟨pair, _, _, isRead⟩
  exact ⟨pair.2, isRead⟩

/-- The bodies of units are those of the units in the files, file by file. -/
theorem HoldUnits.exists_bodies (holds : HoldUnits root files units) :
    ∃ bodies,
      List.Forall₂ (fun file body => ∃ unit, file.unit root = .ok unit ∧ unit.body = body)
        files bodies ∧
      (units.entries.map fun entry => entry.2.body).Perm bodies := by
  rcases holds with ⟨pairs, read, perm⟩
  refine ⟨pairs.map fun pair => pair.2.body, ?_, perm.map _⟩
  exact List.forall₂_map_right_iff.2 (read.imp fun file pair isRead => ⟨pair.2, isRead.2, rfl⟩)

theorem Loads.units_eq
    {otherEntries : List (String × Node)} {otherFiles : List FoundFile} {otherUnits : Units}
    (loads : Loads system config root entries files units)
    (otherLoads : Loads system config root otherEntries otherFiles otherUnits) :
    units = otherUnits := by
  have sameEntries := loads.isDirectory.symm.trans otherLoads.isDirectory
  cases sameEntries
  refine NameMap.ext_get? fun name => Option.ext fun unit => ?_
  rw [loads.holds.get?_eq_some_iff, otherLoads.holds.get?_eq_some_iff]
  simp only [loads.mem_iff, otherLoads.mem_iff]

/-- What can be read has no fault that stops it from being read. -/
theorem Loads.not_failsToLoad
    {error : BuildError}
    (loads : Loads system config root entries files units) :
    ¬ FailsToLoad system config root error := by
  intro fails
  cases fails with
  | settings fault invalid =>
      have same := loads.valid.symm.trans invalid
      cases same
  | directory valid noDirectory => exact noDirectory entries loads.isDirectory
  | identifiers otherEntries first second valid isDirectory isFirst isSecond different same =>
      have sameEntries := loads.isDirectory.symm.trans isDirectory
      cases sameEntries
      exact loads.unique ⟨first, second, isFirst, isSecond, different, same⟩
  | content otherEntries file error valid isDirectory unique isSource failed =>
      have sameEntries := loads.isDirectory.symm.trans isDirectory
      cases sameEntries
      rcases loads.holds.exists_unit ((loads.mem_iff file).2 isSource) with ⟨unit, parsed⟩
      have same := parsed.symm.trans failed
      cases same

/-- A build that fails to load its units has one of the faults of the stages
before assembly. -/
theorem failsToLoad_of_loadUnitsAlong
    {error : BuildError}
    (isTree : system.root.IsTree)
    (scheduled : ∀ sources, (schedule sources).Perm sources.inOrder)
    (failed : loadUnitsAlong schedule system config (.directory root) = .error error) :
    FailsToLoad system config root error := by
  rcases loadUnitsAlong_directory isTree scheduled with
    ⟨_, loaded, fails⟩ | ⟨_, _, _, loaded, _⟩
  · cases failed.symm.trans loaded
    exact fails
  · cases failed.symm.trans loaded

/-- The units that are loaded are those to which the stages lead, whatever the
schedule. -/
theorem loadUnitsAlong_eq_ok_iff
    (isTree : system.root.IsTree)
    (scheduled : ∀ sources, (schedule sources).Perm sources.inOrder) :
    loadUnitsAlong schedule system config (.directory root) = .ok units ↔
      ∃ entries files, Loads system config root entries files units := by
  rcases loadUnitsAlong_directory isTree scheduled with
    ⟨error, loaded, fails⟩ | ⟨entries, files, others, loaded, loads⟩
  · rw [loaded]
    simp only [reduceCtorEq, false_iff]
    rintro ⟨_, _, loads⟩
    exact loads.not_failsToLoad fails
  · rw [loaded]
    constructor
    · intro same
      cases same
      exact ⟨entries, files, loads⟩
    · rintro ⟨_, _, otherLoads⟩
      exact congrArg Except.ok (loads.units_eq otherLoads)

/-! ## The build -/

/-- A build from a directory fails with a fault of the first stage that has
one.  It succeeds exactly when no stage has a fault, and then the program root
holds the body of the unit in each source, once.  No build contradicts itself,
wherever its sources come from. -/
theorem stages_of_assembleProgramAlong
    (schedule : SourceSet → List Nat) (enumerate : Units → Graph String)
    (system : FileSystem) (config : BuildConfig) (root : String)
    (isTree : system.root.IsTree)
    (scheduled : ∀ sources, (schedule sources).Perm sources.inOrder)
    (listed : ∀ units : Units, units.ListedBy (enumerate units)) :
    (∀ error,
        assembleProgramAlong schedule enumerate system config (.directory root) =
          .error error →
        FailsToLoad system config root error ∨
          ∃ entries files units, Loads system config root entries files units ∧
            Assembler.Explains config.build.rootName units error) ∧
      ((∃ program,
          assembleProgramAlong schedule enumerate system config (.directory root) =
            .ok program) ↔
        ∃ entries files units, Loads system config root entries files units ∧
          Assembler.CanAssemble config.build.rootName units) ∧
      (∀ program,
        assembleProgramAlong schedule enumerate system config (.directory root) =
          .ok program →
        ∃ entries files units bodies, Loads system config root entries files units ∧
          config.assembler.IsProgram units program ∧
          List.Forall₂ (fun file body => ∃ unit, file.unit root = .ok unit ∧ unit.body = body)
            files bodies ∧
          program.nested.Perm bodies) ∧
      ∀ input fault,
        assembleProgramAlong schedule enumerate system config input ≠
          .error (.internal fault) := by
  refine ⟨fun error failed => ?_, ⟨?_, ?_⟩, fun program built => ?_, fun input fault failed => ?_⟩
  · rcases Except.bind_eq_error_iff.1 failed with failed | ⟨units, loaded, failed⟩
    · exact .inl (failsToLoad_of_loadUnitsAlong isTree scheduled failed)
    · rcases (loadUnitsAlong_eq_ok_iff isTree scheduled).1 loaded with ⟨entries, files, loads⟩
      exact .inr ⟨entries, files, units, loads,
        Assembler.explains_of_failed (listed units) failed⟩
  · rintro ⟨program, built⟩
    rcases Except.bind_eq_ok_iff.1 built with ⟨units, loaded, assembled⟩
    rcases (loadUnitsAlong_eq_ok_iff isTree scheduled).1 loaded with ⟨entries, files, loads⟩
    exact ⟨entries, files, units, loads,
      (Assembler.exists_assembleAlong_eq_ok_iff (listed units)).1 ⟨program, assembled⟩⟩
  · rintro ⟨entries, files, units, loads, can⟩
    have can : Assembler.CanAssemble config.assembler.rootName units := can
    have loaded := (loadUnitsAlong_eq_ok_iff isTree scheduled).2 ⟨entries, files, loads⟩
    rcases (Assembler.exists_assembleAlong_eq_ok_iff (listed units)).2 can with
      ⟨program, assembled⟩
    exact ⟨program, Except.bind_eq_ok_iff.2 ⟨units, loaded, assembled⟩⟩
  · rcases Except.bind_eq_ok_iff.1 built with ⟨units, loaded, assembled⟩
    rcases (loadUnitsAlong_eq_ok_iff isTree scheduled).1 loaded with ⟨entries, files, loads⟩
    have isProgram := Assembler.isProgram_of_assembleAlong (listed units) assembled
    rcases loads.holds.exists_bodies with ⟨bodies, areBodies, perm⟩
    exact ⟨entries, files, units, bodies, loads, isProgram, areBodies,
      isProgram.nested_perm.trans perm⟩
  · rcases Except.bind_eq_error_iff.1 failed with failed | ⟨units, _, failed⟩
    · exact loadUnitsAlong_ne_internal scheduled input fault failed
    · exact (Assembler.explains_of_failed (listed units) failed).ne_internal fault rfl

/-- Two directories with a file of one name in each. -/
def twice : FileSystem where
  root := .directory
    [("a", .directory [("M.tarn", .file ⟨#[255]⟩)]),
      ("b", .directory [("M.tarn", .file ⟨#[]⟩)])]
  workingDirectory := []

theorem isTree_twice : twice.root.IsTree := by
  have isA : Node.IsName "a" := by constructor <;> decide
  have isB : Node.IsName "b" := by constructor <;> decide
  have isM : Node.IsName "M.tarn" := by constructor <;> decide
  have below (content : ByteArray) :
      (Node.directory [("M.tarn", .file content)]).IsTree :=
    .directory _ (by simp) (by simpa using isM) (by simpa using .file content)
  exact .directory _ (by decide) (by simp [isA, isB]) (by simp [below])

theorem node?_twice : twice.node? "/" = some twice.root :=
  FileSystem.node?_slash rfl

/-- The build fails as the two files have one identifier, although the content
of the first is no text. -/
theorem twice_fails :
    twice.root.IsTree ∧
      (∀ sources, (SourceSet.inOrder sources).Perm sources.inOrder) ∧
      (∀ units : Units, units.ListedBy units.importGraph) ∧
      ∃ error, assembleProgram twice {} (.directory "/") = .error error ∧
        error.kind = .duplicateFile := by
  obtain ⟨fails, succeeds, _⟩ := stages_of_assembleProgramAlong SourceSet.inOrder
    Units.importGraph twice {} "/" isTree_twice (fun _ => .refl _) Units.listedBy_importGraph
  have duplicate : FoundFile.HasDuplicate "tarn" twice.root :=
    ⟨⟨["a", "M.tarn"], ⟨#[255]⟩⟩, ⟨["b", "M.tarn"], ⟨#[]⟩⟩, ⟨rfl, by decide⟩, ⟨rfl, by decide⟩,
      by decide, rfl⟩
  have notLoaded {entries : List (String × Node)} {files : List FoundFile} {units : Units} :
      ¬ Loads twice {} "/" entries files units := by
    intro loads
    have sameEntries := loads.isDirectory.symm.trans node?_twice
    cases sameEntries
    exact loads.unique duplicate
  refine ⟨isTree_twice, fun _ => .refl _, Units.listedBy_importGraph, ?_⟩
  cases built : assembleProgram twice {} (.directory "/") with
  | ok program =>
      rcases succeeds.1 ⟨program, built⟩ with ⟨_, _, _, loads, _⟩
      exact (notLoaded loads).elim
  | error error =>
      refine ⟨error, rfl, ?_⟩
      rcases fails error built with fails | ⟨_, _, _, loads, _⟩
      · cases fails with
        | settings fault invalid => cases invalid
        | directory valid noDirectory => exact (noDirectory _ node?_twice).elim
        | identifiers => rfl
        | content entries file error valid isDirectory unique =>
            have sameEntries := isDirectory.symm.trans node?_twice
            cases sameEntries
            exact (unique duplicate).elim
      · exact (notLoaded loads).elim

end TarnBuild
