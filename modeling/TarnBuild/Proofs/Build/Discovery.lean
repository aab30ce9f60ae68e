import TarnBuild.Proofs.Build.Directory

/-!
# The order of discovery

The sources below a directory are all files whose names are a stem, a point and
the extension of sources.  They come in the order of their paths, name by name,
which is the order of the walk.  When two of them have one stem, the first one
that repeats an earlier stem is reported, with the file that had it before.
-/

namespace TarnBuild.FoundFile

variable {extension root : String} {directory : Node} {file : FoundFile}
  {system : FileSystem} {entries : List (String × Node)}

/-- A file below a directory, reached through directories alone, whose name is
the identifier of the file, a point and an extension. -/
structure IsNamed (extension : String) (directory : Node) (file : FoundFile) : Prop where
  found : directory.at? file.names = some (.file file.content)
  name : file.names.getLast? = some (file.identifier ++ "." ++ extension)
  hasStem : file.identifier ≠ ""
  noPoint : '.' ∉ extension.toList

theorem isSource_iff_isNamed :
    file.IsSource extension directory ↔ file.IsNamed extension directory := by
  constructor
  · rintro ⟨found, hasExtension⟩
    rcases Option.bind_eq_some_iff.1 hasExtension with ⟨name, isLast, hasExtension⟩
    have stem : file.identifier = Path.stem name := by simp [identifier, isLast]
    rcases Path.extension?_eq_some_iff.1 hasExtension with ⟨hasStem, noPoint, parts⟩
    rw [← stem] at hasStem parts
    exact ⟨found, isLast.trans (congrArg some parts), hasStem, noPoint⟩
  · rintro ⟨found, isLast, hasStem, noPoint⟩
    have split := Path.splitName_eq_iff.2 ⟨hasStem, noPoint, rfl⟩
    exact ⟨found, by rw [isLast, Option.bind_some, Path.extension?, split]⟩

/-- The names that lead to a source are pieces of a path. -/
theorem IsSource.forall_names
    (isTree : directory.IsTree)
    (isSource : file.IsSource extension directory) :
    ∀ name ∈ file.names, Path.isVoid name = false ∧ '/' ∉ name.toList := by
  intro name isMember
  have isName := (isTree.at? isSource.found).2 name isMember
  exact ⟨(FileSystem.isPlain_of_isName isName).1, isName.noSlash⟩

theorem pairwise_names_sources (isTree : directory.IsTree) :
    (sources extension directory).Pairwise fun first second => first.names < second.names := by
  refine isTree.pairwise_leaves.filterMap _ fun names others less first isFirst second isSecond => ?_
  rw [(at?_eq_some_iff.1 isFirst).1, (at?_eq_some_iff.1 isSecond).1]
  exact less

/-- The walk comes to the sources in the order of their paths. -/
theorem pairwise_path_sources
    (nonempty : root ≠ "")
    (isTree : directory.IsTree) :
    (sources extension directory).Pairwise fun first second =>
      Path.Precedes (first.path root) (second.path root) := by
  refine (pairwise_names_sources isTree).imp_of_mem fun isFirst isSecond less => ?_
  exact Path.precedes_foldl_join nonempty
    (((mem_sources_iff isTree).1 isFirst).forall_names isTree)
    (((mem_sources_iff isTree).1 isSecond).forall_names isTree) less

/-- Discovery lists the files with an extension below a directory, in the order of
their paths and each once, unless two of them have one stem.  Then, and only
then, it fails, and names the first file that repeats a stem. -/
theorem discover_eq_listing_or_firstRepeat
    (system : FileSystem) (root extension : String) (entries : List (String × Node))
    (isTree : (Node.directory entries).IsTree)
    (isDirectory : system.node? root = some (.directory entries)) :
    ∃ files : List FoundFile,
      (∀ file, file ∈ files ↔ file.IsNamed extension (.directory entries)) ∧
        (files.Pairwise fun first second =>
          Path.Precedes (first.path root) (second.path root)) ∧
        (∀ found, SourceSet.discover system root extension = .ok found ↔
          (files.map identifier).Nodup ∧
            found = ⟨files.map fun file => ⟨some file.identifier, .file (file.path root)⟩⟩) ∧
        ((∃ error, SourceSet.discover system root extension = .error error) ↔
          ∃ first ∈ files, ∃ second ∈ files,
            first.names ≠ second.names ∧ first.identifier = second.identifier) ∧
        ∀ error, SourceSet.discover system root extension = .error error →
          ∃ first second, IsFirstRepeat files first second ∧
            error =
              .duplicateFile second.identifier (first.path root) (second.path root) := by
  have nonempty := FileSystem.ne_empty_of_node? isDirectory
  refine ⟨sources extension (.directory entries), fun file => ?_,
    pairwise_path_sources nonempty isTree, fun found => ?_, ⟨?_, ?_⟩,
    fun error failed => exists_firstRepeat_of_discover_eq_error isTree isDirectory failed⟩
  · rw [mem_sources_iff isTree, isSource_iff_isNamed]
  · rw [discover_eq_ok_iff isTree isDirectory, nodup_identifiers_iff isTree]
    rfl
  · rintro ⟨error, failed⟩
    rcases exists_of_discover_eq_error isTree isDirectory failed with
      ⟨first, second, isFirst, isSecond, different, same, _⟩
    exact ⟨first, (mem_sources_iff isTree).2 isFirst, second,
      (mem_sources_iff isTree).2 isSecond, different, same⟩
  · rintro ⟨first, isFirst, second, isSecond, different, same⟩
    cases discovered : SourceSet.discover system root extension with
    | ok found =>
        have unique := ((discover_eq_ok_iff isTree isDirectory).1 discovered).1
        exact (unique ⟨first, second, (mem_sources_iff isTree).1 isFirst,
          (mem_sources_iff isTree).1 isSecond, different, same⟩).elim
    | error error => exact ⟨error, rfl⟩

/-- A directory whose name is the stem of a file beside it, with a file of the
same name in it, a file without a stem and a link. -/
def shelf : List (String × Node) :=
  [("M.tarn", .file ⟨#[]⟩),
    ("M", .directory
      [("M.tarn", .file ⟨#[]⟩), (".tarn", .file ⟨#[]⟩), ("N.tarn", .link "M.tarn")])]

theorem isTree_shelf : (Node.directory shelf).IsTree := by
  have isM : Node.IsName "M" := by constructor <;> decide
  have isFile : Node.IsName "M.tarn" := by constructor <;> decide
  have isHidden : Node.IsName ".tarn" := by constructor <;> decide
  have isLink : Node.IsName "N.tarn" := by constructor <;> decide
  have inner : (Node.directory
      [("M.tarn", .file ⟨#[]⟩), (".tarn", .file ⟨#[]⟩), ("N.tarn", .link "M.tarn")]).IsTree :=
    .directory _ (by decide) (by simp [isFile, isHidden, isLink])
      (by simp [Node.IsTree.file, Node.IsTree.link])
  exact .directory _ (by decide) (by simp [shelf, isM, isFile])
    (by simp [shelf, Node.IsTree.file, inner])

/-- The file in the directory comes first, although its path is the greater text. -/
theorem shelf_repeats_inner_file :
    (Node.directory shelf).IsTree ∧
      FileSystem.node? ⟨.directory shelf, []⟩ "/" = some (.directory shelf) ∧
      SourceSet.discover ⟨.directory shelf, []⟩ "/" "tarn" =
        .error (.duplicateFile "M" "/M/M.tarn" "/M.tarn") := by
  have isDirectory : FileSystem.node? ⟨.directory shelf, []⟩ "/" = some (.directory shelf) :=
    FileSystem.node?_slash rfl
  refine ⟨isTree_shelf, isDirectory, ?_⟩
  obtain ⟨files, mem, ordered, _, fails, repeats⟩ :=
    discover_eq_listing_or_firstRepeat _ "/" "tarn" shelf isTree_shelf isDirectory
  have isInner : (⟨["M", "M.tarn"], ⟨#[]⟩⟩ : FoundFile) ∈ files :=
    (mem _).2 ⟨rfl, by decide, by decide, by decide⟩
  have isOuter : (⟨["M.tarn"], ⟨#[]⟩⟩ : FoundFile) ∈ files :=
    (mem _).2 ⟨rfl, by decide, by decide, by decide⟩
  have areAll : ∀ file ∈ files, file.names = ["M", "M.tarn"] ∨ file.names = ["M.tarn"] := by
    rintro ⟨names, content⟩ isMember
    have isNamed := (mem _).1 isMember
    have isLeaf : ["M.tarn"] = names ∨ ["M", "M.tarn"] = names ∨ ["M", ".tarn"] = names := by
      simpa [shelf, Node.mem_files_directory] using
        isTree_shelf.mem_leaves_iff.2 ⟨content, isNamed.found⟩
    rcases isLeaf with rfl | rfl | rfl
    · exact .inr rfl
    · exact .inl rfl
    · have hidden : some ".tarn" = some (Path.stem ".tarn" ++ "." ++ "tarn") := isNamed.name
      exact absurd hidden (by decide)
  obtain ⟨error, failed⟩ := fails.2 ⟨_, isInner, _, isOuter, by decide, by decide⟩
  obtain ⟨first, second, ⟨before, after, rfl, _, isBefore, _⟩, rfl⟩ := repeats error failed
  have precedes := (List.pairwise_append.1 ordered).2.2 first isBefore second List.mem_cons_self
  rw [Path.Precedes, Text.map_bytes_lt_map_bytes_iff, path, path] at precedes
  rw [failed, identifier, path, path]
  -- Of the two files only the inner one has a path before that of another.
  rcases areAll first (List.mem_append_left _ isBefore) with firstNames | firstNames <;>
    rcases areAll second (List.mem_append_right _ List.mem_cons_self) with
      secondNames | secondNames <;>
    rw [firstNames, secondNames] at precedes
  · exact absurd precedes (by decide)
  · rw [firstNames, secondNames]
    rfl
  · exact absurd precedes (by decide)
  · exact absurd precedes (by decide)

end TarnBuild.FoundFile
