import TarnBuild.Build.Program
import TarnBuild.Proofs.File.System

/-!
# Extensions with a point

The extension of a name stands after its last point, so no name has an extension
with a point in it.  Where the settings ask for such an extension, which their
check lets through, no file is a source, and every directory is built into a
program root without units.  Every other extension finds its files, blank
characters at its ends included.
-/

namespace TarnBuild

variable {system : FileSystem} {config : BuildConfig} {root extension stem : String}
  {entries : List (String × Node)} {content : ByteArray}

theorem Path.extension?_ne_some_of_point
    (hasPoint : '.' ∈ extension.toList) (name : String) :
    Path.extension? name ≠ some extension :=
  fun hasExtension => (Path.extension?_eq_some_iff.1 hasExtension).2.1 hasPoint

theorem Node.files_singleton (name : String) (content : ByteArray) :
    (Node.directory [(name, .file content)]).files = [[name]] := by
  simp [Node.files, Node.filesOfEntries]

namespace SourceSet

/-- No file has an extension with a point in it. -/
theorem candidates_eq_nil_of_point
    (hasPoint : '.' ∈ extension.toList) (root : String) (files : List (List String)) :
    candidates root extension files = [] := by
  refine List.filterMap_eq_nil_iff.2 fun names _ => ?_
  cases names.getLast? with
  | none => rfl
  | some name => exact if_neg (Path.extension?_ne_some_of_point hasPoint name)

theorem discover_eq_nil_of_point
    (hasPoint : '.' ∈ extension.toList)
    (isDirectory : system.node? root = some (.directory entries)) :
    discover system root extension = .ok ⟨[]⟩ := by
  simp only [discover, isDirectory, candidates_eq_nil_of_point hasPoint]
  rfl

/-- The only file of a directory is found under its stem. -/
theorem discover_singleton
    (hasStem : stem ≠ "")
    (noPoint : '.' ∉ extension.toList)
    (isDirectory : system.node? root =
      some (.directory [(stem ++ "." ++ extension, .file content)])) :
    discover system root extension =
      .ok ⟨[⟨some stem, .file (Path.join root (stem ++ "." ++ extension))⟩]⟩ := by
  have split := Path.splitName_eq_iff.2 ⟨hasStem, noPoint, rfl⟩
  have isCandidate :
      candidates root extension [[stem ++ "." ++ extension]] =
        [(stem, Path.join root (stem ++ "." ++ extension))] := by
    simp [candidates, Path.extension?, Path.stem, split]
  simp only [discover, isDirectory, Node.files_singleton, isCandidate]
  rfl

end SourceSet

/-- Without sources there are no units to put together. -/
theorem assembleProgram_of_acquire_nil
    {input : SourceInput}
    (valid : config.validate = .ok ())
    (acquired : input.acquire system config = .ok ⟨[]⟩) :
    assembleProgram system config input = .ok (config.assembler.root []) := by
  have loaded : loadUnitsAlong SourceSet.inOrder system config input = .ok .empty := by
    simp only [loadUnitsAlong, BuildConfig.check, valid, acquired, Except.mapError, bind,
      Except.bind]
    split <;> rfl
  simp only [assembleProgram, assembleProgramAlong, loaded, bind, Except.bind]
  rfl

/-- With settings that pass the check, the only file of a directory, whose name is a
stem, a point and the extension of sources, is found under its stem exactly when
there is no point in the extension.  Where there is one, every directory counts as
one without sources and is built into an empty program root. -/
theorem discover_singleton_iff_and_assembleProgram_of_point
    (config : BuildConfig)
    (valid : config.validate = .ok ()) :
    (∀ (system : FileSystem) (root stem : String) (content : ByteArray),
        stem ≠ "" →
        system.node? root = some (.directory
          [(stem ++ "." ++ config.build.extension, .file content)]) →
        (SourceSet.discover system root config.build.extension = .ok ⟨[⟨some stem,
            .file (Path.join root (stem ++ "." ++ config.build.extension))⟩]⟩ ↔
          '.' ∉ config.build.extension.toList)) ∧
      ('.' ∈ config.build.extension.toList →
        ∀ (system : FileSystem) (root : String) (entries : List (String × Node)),
          system.node? root = some (.directory entries) →
          SourceSet.discover system root config.build.extension = .ok ⟨[]⟩ ∧
            assembleProgram system config (.directory root) =
              .ok (config.assembler.root [])) := by
  constructor
  · intro system root stem content hasStem isDirectory
    constructor
    · intro found hasPoint
      have foundNone := SourceSet.discover_eq_nil_of_point hasPoint isDirectory
      cases foundNone.symm.trans found
    · exact fun noPoint => SourceSet.discover_singleton hasStem noPoint isDirectory
  · intro hasPoint system root entries isDirectory
    have foundNone := SourceSet.discover_eq_nil_of_point hasPoint isDirectory
    exact ⟨foundNone, assembleProgram_of_acquire_nil valid foundNone⟩

/-- Settings that ask for an extension with a point. -/
def twofold : BuildConfig where
  build := { extension := "tarn.txt" }

theorem validate_twofold : twofold.validate = .ok () :=
  rfl

/-- A file that is alone in its directory. -/
def lone (name : String) : FileSystem where
  root := .directory [(name, .file "module Main {}".toUTF8)]
  workingDirectory := []

theorem node?_lone (name : String) :
    (lone name).node? "/" = some (.directory [(name, .file "module Main {}".toUTF8)]) :=
  FileSystem.node?_slash rfl

/-- With the default settings a file is found.  With an extension of two parts the
build of a file that has it succeeds without the file. -/
theorem lone_found_or_passed_over :
    BuildConfig.validate {} = .ok () ∧
      SourceSet.discover (lone "Main.tarn") "/" "tarn" =
        .ok ⟨[⟨some "Main", .file "/Main.tarn"⟩]⟩ ∧
      twofold.validate = .ok () ∧
      assembleProgram (lone "Main.tarn.txt") twofold (.directory "/") =
        .ok (twofold.assembler.root []) := by
  have valid : BuildConfig.validate {} = .ok () := rfl
  obtain ⟨finds, _⟩ := discover_singleton_iff_and_assembleProgram_of_point {} valid
  obtain ⟨_, builds⟩ := discover_singleton_iff_and_assembleProgram_of_point twofold validate_twofold
  exact ⟨valid, (finds (lone "Main.tarn") "/" "Main" _ (by decide) (node?_lone _)).2 (by decide),
    validate_twofold, (builds (by decide) (lone "Main.tarn.txt") "/" _ (node?_lone _)).2⟩

/-- The file has the extension of the settings, which pass the check, but is not
found. -/
theorem lone_twofold_not_found :
    twofold.validate = .ok () ∧
      (lone ("Main" ++ "." ++ twofold.build.extension)).node? "/" = some (.directory
        [("Main" ++ "." ++ twofold.build.extension, .file "module Main {}".toUTF8)]) ∧
      SourceSet.discover (lone ("Main" ++ "." ++ twofold.build.extension)) "/"
          twofold.build.extension = .ok ⟨[]⟩ :=
  have hasPoint : '.' ∈ twofold.build.extension.toList := by decide
  ⟨validate_twofold, node?_lone _,
    SourceSet.discover_eq_nil_of_point hasPoint (node?_lone _)⟩

end TarnBuild
