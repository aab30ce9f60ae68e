import TarnBuild.Proofs.Build.Source
import TarnBuild.Proofs.File.System

/-!
# Sources in a directory

The sources that a build finds below a directory are the files with its
extension, each under its name without the extension.  They are accepted when
no two of them have one identifier, and each is then read as the unit that its
content holds.
-/

namespace TarnBuild

/-! ## Files -/

/-- A file below a directory: the names that lead to it, and what it holds. -/
structure FoundFile where
  names : List String
  content : ByteArray

namespace FoundFile

/-- A file is known by its name without the extension. -/
def identifier (file : FoundFile) : String :=
  Path.stem (file.names.getLast?.getD "")

/-- The path that leads to a file from the path of the directory. -/
def path (root : String) (file : FoundFile) : String :=
  file.names.foldl Path.join root

/-- The text of a file, if a system takes its path and its content is one. -/
def text (root : String) (file : FoundFile) : Except FileFault String :=
  if FileSystem.pathLimit < (file.path root).utf8ByteSize then
    .error .nameTooLong
  else
    match String.fromUTF8? file.content with
    | some text => .ok text
    | none => .error .notText

/-- The unit that a file holds, or what is wrong with the file. -/
def unit (root : String) (file : FoundFile) : Except BuildError CompilationUnit :=
  match file.text root with
  | .error fault => .error (.unusableFile (file.path root) fault)
  | .ok text =>
      match parse text.toList with
      | .error error =>
          .error (.malformedSource (file.path root) (SourceFile.report text.toList error))
      | .ok unit => .ok unit

/-- The identifier and the path of a file. -/
def entry (root : String) (file : FoundFile) : String × String :=
  (file.identifier, file.path root)

/-- A file is a source below a directory: the directory holds it, and its name
has the extension of sources. -/
structure IsSource (extension : String) (directory : Node) (file : FoundFile) : Prop where
  found : directory.at? file.names = some (.file file.content)
  extension : file.names.getLast?.bind Path.extension? = some extension

variable {extension root : String} {directory : Node} {file : FoundFile}
  {names : List String} {entries : List (String × Node)}

/-! ## Listing -/

/-- The source that some names lead to. -/
def at? (extension : String) (directory : Node) (names : List String) : Option FoundFile :=
  match directory.at? names with
  | some (.file content) =>
      if names.getLast?.bind Path.extension? = some extension then
        some ⟨names, content⟩
      else
        none
  | _ => none

theorem at?_eq_some_iff :
    at? extension directory names = some file ↔
      file.names = names ∧ file.IsSource extension directory := by
  rcases file with ⟨fileNames, content⟩
  unfold at?
  constructor
  · intro found
    split at found
    · next isFile =>
        split at found
        · next hasExtension =>
            cases found
            exact ⟨rfl, isFile, hasExtension⟩
        · cases found
    · cases found
  · rintro ⟨rfl, found, hasExtension⟩
    simp only at found hasExtension
    simp [found, hasExtension]

/-- The sources below a directory, in the order of the walk over it. -/
def sources (extension : String) (directory : Node) : List FoundFile :=
  directory.leaves.filterMap (at? extension directory)

theorem mem_sources_iff (isTree : directory.IsTree) :
    file ∈ sources extension directory ↔ file.IsSource extension directory := by
  simp only [sources, List.mem_filterMap, at?_eq_some_iff]
  constructor
  · rintro ⟨names, _, _, isSource⟩
    exact isSource
  · intro isSource
    exact ⟨file.names, isTree.mem_leaves_iff.2 ⟨file.content, isSource.found⟩, rfl, isSource⟩

theorem nodup_sources (isTree : directory.IsTree) :
    (sources extension directory).Nodup := by
  refine isTree.nodup_leaves.filterMap fun first second file isFirst isSecond => ?_
  rw [← (at?_eq_some_iff.1 isFirst).1, (at?_eq_some_iff.1 isSecond).1]

/-- The walk over a directory offers the sources below it. -/
theorem candidates_eq_map_sources (isTree : (Node.directory entries).IsTree) :
    SourceSet.candidates root extension (Node.directory entries).files =
      (sources extension (.directory entries)).map (entry root) := by
  rw [SourceSet.candidates, sources, Node.leaves_directory, List.map_filterMap]
  refine List.filterMap_congr fun names isLeaf => ?_
  rcases isTree.mem_leaves_iff.1 isLeaf with ⟨content, found⟩
  cases last : names.getLast? with
  | none => simp [at?, found, last]
  | some name =>
      by_cases hasExtension : Path.extension? name = some extension <;>
        simp [at?, found, last, hasExtension, entry, identifier, path]

/-! ## Identifiers -/

/-- Two sources below a directory have one identifier. -/
def HasDuplicate (extension : String) (directory : Node) : Prop :=
  ∃ first second : FoundFile,
    first.IsSource extension directory ∧ second.IsSource extension directory ∧
      first.names ≠ second.names ∧ first.identifier = second.identifier

theorem IsSource.eq_of_names_eq
    {other : FoundFile}
    (isSource : file.IsSource extension directory)
    (isOther : other.IsSource extension directory)
    (same : file.names = other.names) :
    file = other := by
  rcases file with ⟨names, content⟩
  rcases other with ⟨_, otherContent⟩
  cases same
  have sameFile := isSource.found.symm.trans isOther.found
  cases sameFile
  rfl

theorem nodup_identifiers_iff (isTree : directory.IsTree) :
    ((sources extension directory).map identifier).Nodup ↔
      ¬ HasDuplicate extension directory := by
  rw [List.nodup_map_iff_inj_on (nodup_sources isTree)]
  simp only [mem_sources_iff isTree]
  constructor
  · rintro injective ⟨first, second, isFirst, isSecond, different, same⟩
    exact different (congrArg names (injective first isFirst second isSecond same))
  · intro unique first isFirst second isSecond same
    by_contra different
    exact unique ⟨first, second, isFirst, isSecond,
      fun sameNames => different (isFirst.eq_of_names_eq isSecond sameNames), same⟩

/-- Of some files, the second is the first one with the identifier of an earlier
one, and the first is that one. -/
def IsFirstRepeat (files : List FoundFile) (first second : FoundFile) : Prop :=
  ∃ before after, files = before ++ second :: after ∧
    (before.map identifier).Nodup ∧ first ∈ before ∧
    ∀ file ∈ before, file.identifier = second.identifier ↔ file = first

variable {system : FileSystem}

theorem discover_eq_error_of_noDirectory
    (noDirectory : ∀ entries, system.node? root ≠ some (.directory entries)) :
    SourceSet.discover system root extension =
      .error (.unusableFile root .noSourceDirectory) := by
  unfold SourceSet.discover
  split
  · next entries isDirectory => exact (noDirectory entries isDirectory).elim
  · rfl

theorem discover_eq_distinctFiles
    (isTree : (Node.directory entries).IsTree)
    (isDirectory : system.node? root = some (.directory entries)) :
    SourceSet.discover system root extension =
      SourceSet.distinctFiles [] ((sources extension (.directory entries)).map (entry root)) >>=
        fun files => .ok ⟨files⟩ := by
  unfold SourceSet.discover
  simp only [isDirectory, candidates_eq_map_sources isTree]
  rfl

/-- Sources are found in the order of the walk when there is no duplicate. -/
theorem discover_eq_ok_iff
    {found : SourceSet}
    (isTree : (Node.directory entries).IsTree)
    (isDirectory : system.node? root = some (.directory entries)) :
    SourceSet.discover system root extension = .ok found ↔
      ¬ HasDuplicate extension (.directory entries) ∧
        found = ⟨(sources extension (.directory entries)).map fun file =>
          SourceSet.sourceAt (file.entry root)⟩ := by
  have names : ((sources extension (.directory entries)).map (entry root)).map Prod.fst =
      (sources extension (.directory entries)).map identifier :=
    List.map_map
  rw [discover_eq_distinctFiles isTree isDirectory, ← nodup_identifiers_iff isTree,
    ← names, Except.bind_eq_ok_iff]
  simp only [SourceSet.distinctFiles_nil_eq_ok_iff, Except.ok.injEq]
  constructor
  · rintro ⟨_, ⟨distinct, rfl⟩, rfl⟩
    exact ⟨distinct, congrArg SourceSet.mk List.map_map⟩
  · rintro ⟨distinct, rfl⟩
    exact ⟨_, ⟨distinct, rfl⟩, congrArg SourceSet.mk List.map_map⟩

/-- The first source whose identifier an earlier one has is reported, together
with that one. -/
theorem exists_firstRepeat_of_discover_eq_error
    {error : BuildError}
    (isTree : (Node.directory entries).IsTree)
    (isDirectory : system.node? root = some (.directory entries))
    (failed : SourceSet.discover system root extension = .error error) :
    ∃ first second,
      IsFirstRepeat (sources extension (.directory entries)) first second ∧
        error = .duplicateFile second.identifier (first.path root) (second.path root) := by
  rw [discover_eq_distinctFiles isTree isDirectory] at failed
  rcases Except.bind_eq_error_iff.1 failed with refused | ⟨_, _, refused⟩
  · rcases SourceSet.exists_of_distinctFiles_nil_eq_error refused with
      ⟨earlier, identifier, firstPath, secondPath, later, parts, distinct, isFound, rfl⟩
    rcases List.map_eq_append_iff.1 parts with ⟨before, rest, same, rfl, restEntries⟩
    rcases List.map_eq_cons_iff.1 restEntries with ⟨second, after, rfl, secondEntry, _⟩
    rcases Prod.mk.inj secondEntry with ⟨rfl, rfl⟩
    have distinctNames : (before.map FoundFile.identifier).Nodup := by
      simpa [entry, Function.comp_def] using distinct
    rcases List.mem_map.1 isFound with ⟨first, isFirst, firstEntry⟩
    rcases Prod.mk.inj firstEntry with ⟨sameIdentifier, rfl⟩
    refine ⟨first, second, ⟨before, after, same, distinctNames, isFirst, fun file isBefore => ?_⟩,
      rfl⟩
    rw [← sameIdentifier]
    exact ⟨fun sameAsFirst => List.inj_on_of_nodup_map distinctNames isBefore isFirst sameAsFirst,
      congrArg FoundFile.identifier⟩
  · cases refused

/-- A duplicate is reported with the paths of two sources that have one
identifier. -/
theorem exists_of_discover_eq_error
    {error : BuildError}
    (isTree : (Node.directory entries).IsTree)
    (isDirectory : system.node? root = some (.directory entries))
    (failed : SourceSet.discover system root extension = .error error) :
    ∃ first second : FoundFile,
      first.IsSource extension (.directory entries) ∧
        second.IsSource extension (.directory entries) ∧
        first.names ≠ second.names ∧ first.identifier = second.identifier ∧
        error = .duplicateFile first.identifier (first.path root) (second.path root) := by
  rcases exists_firstRepeat_of_discover_eq_error isTree isDirectory failed with
    ⟨first, second, ⟨before, after, parts, _, isBefore, unique⟩, reported⟩
  have isSource {file : FoundFile} (isMember : file ∈ before ++ second :: after) :
      file.IsSource extension (.directory entries) :=
    (mem_sources_iff isTree).1 (parts ▸ isMember)
  have isFirst := isSource (List.mem_append_left _ isBefore)
  have isSecond := isSource (List.mem_append_right _ List.mem_cons_self)
  have sameIdentifier := (unique first isBefore).2 rfl
  have distinct : (before ++ second :: after).Nodup := parts ▸ nodup_sources isTree
  have different : first ≠ second :=
    (List.nodup_append.1 distinct).2.2 first isBefore second List.mem_cons_self
  exact ⟨first, second, isFirst, isSecond,
    fun sameNames => different (isFirst.eq_of_names_eq isSecond sameNames), sameIdentifier,
    sameIdentifier ▸ reported⟩

/-! ## Units -/

/-- A source is read from the content of its file. -/
theorem read_sourceAt_entry
    (isTree : system.root.IsTree)
    (isDirectory : system.node? root = some (.directory entries))
    (isSource : file.IsSource extension (.directory entries)) :
    (SourceSet.sourceAt (file.entry root)).read system =
      file.unit root >>= fun unit => .ok (file.identifier, unit) := by
  have read : system.readText (file.path root) = file.text root :=
    FileSystem.readText_of_at? isTree isDirectory isSource.found
  have content : (SourceSet.sourceAt (file.entry root)).content system =
      (file.text root).mapError (.unusableFile (file.path root)) :=
    congrArg (Except.mapError _) read
  rw [SourceFile.read, content, unit]
  cases file.text root with
  | error fault => rfl
  | ok text =>
      simp only [Except.mapError, bind, Except.bind]
      cases parse text.toList <;> rfl

end FoundFile

end TarnBuild
