import TarnBuild.Build.Program
import TarnBuild.Proofs.File.Directory

/-!
# The configuration beside the sources

A directory has the configuration that the file of one fixed name among its entries
holds, or the default one.  Sources from a file have the configuration of the
directory that contains the file where the path of the file has a slash.  A name
alone has the default configuration, whatever the working directory has, so two
spellings of one file may differ in their configuration.
-/

namespace TarnBuild.BuildConfig

variable {system : FileSystem} {path directory name : String} {front place : List String}
  {entries : List (String × Node)} {content : ByteArray}

/-! ## The configuration of a directory -/

/-- The configuration that the content of a file holds, or what is wrong with it. -/
def ofContent (path : String) (content : ByteArray) : Except BuildError BuildConfig :=
  match String.fromUTF8? content with
  | some text => (ofToml text.toList).mapError fun fault => .badConfig (.inFile path fault)
  | none => .error (.unusableFile path .notText)

/-- The configuration of a directory with some entries: that of the file with the
name of configurations, if a system takes its path, or else the default one. -/
def ofEntries (directory : String) (entries : List (String × Node)) :
    Except BuildError BuildConfig :=
  let path := Path.join directory configFileName
  match entries.lookup configFileName with
  | some (.file content) =>
      if FileSystem.pathLimit < path.utf8ByteSize then .ok {} else ofContent path content
  | _ => .ok {}

theorem isName_configFileName : Node.IsName configFileName := by
  constructor <;> decide

theorem discover_eq_ofContent
    (found : system.find (Path.join directory configFileName) = .ok (place, some (.file content))) :
    discover system directory = ofContent (Path.join directory configFileName) content := by
  have isFile := FileSystem.isFile_eq_true_iff.2 ⟨place, content, found⟩
  unfold discover
  dsimp only
  rw [if_pos isFile, load, FileSystem.readText, found, ofContent]
  dsimp only
  cases String.fromUTF8? content <;> rfl

theorem discover_eq_default
    (notFile : system.isFile (Path.join directory configFileName) ≠ true) :
    discover system directory = .ok {} :=
  if_neg notFile

/-- The entries of a directory decide on its configuration, unless the name of
configurations is that of a link. -/
theorem discover_eq_ofEntries
    (found : system.find directory = .ok (place, some (.directory entries)))
    (notLink : ∀ target, entries.lookup configFileName ≠ some (.link target)) :
    discover system directory = ofEntries directory entries := by
  have joined := FileSystem.find_join_of_lookup found isName_configFileName notLink
  unfold ofEntries
  dsimp only
  split
  · next content isFile =>
      rw [isFile] at joined
      split at joined
      · next tooLong =>
          rw [if_pos tooLong]
          exact discover_eq_default (by simp [FileSystem.isFile_eq_true_iff, joined])
      · next shortEnough =>
          rw [if_neg shortEnough]
          exact discover_eq_ofContent joined
  · next notFile =>
      refine discover_eq_default fun isFile => ?_
      rcases FileSystem.isFile_eq_true_iff.1 isFile with ⟨reached, content, isFound⟩
      rw [joined] at isFound
      split at isFound
      · cases isFound
      · exact notFile content (Prod.mk.inj (Except.ok.inj isFound)).2

/-! ## The configuration of a file -/

theorem resolve_file_of_parent? {parent : String}
    (isParent : Path.parent? path = some parent)
    (nonempty : parent ≠ "") :
    resolve system none (.file path) = discover system parent := by
  simp [resolve, isParent, nonempty]

/-- A name alone has the default configuration. -/
theorem resolve_file_of_name
    (isAlone : Path.pieces path = [name])
    (notVoid : Path.isVoid name = false) :
    resolve system none (.file path) = .ok {} := by
  simp [resolve, Path.parent?_of_name isAlone notVoid]

/-- A path with a slash has the configuration of the directory before its last name. -/
theorem resolve_file_of_ne_nil
    (parts : Path.pieces path = front ++ [name])
    (notVoid : Path.isVoid name = false)
    (nonempty : front ≠ []) :
    resolve system none (.file path) = discover system (Path.directoryOf path) := by
  rcases Path.exists_parent?_of_ne_nil parts notVoid nonempty with
    ⟨parent, _, _, _, isParent, parentNonempty, _⟩
  rw [resolve_file_of_parent? isParent parentNonempty,
    Path.directoryOf_of_parent? isParent parentNonempty]

/-- After a point and a slash, a name has the configuration of the working directory. -/
theorem resolve_file_point_of_name
    (isAlone : Path.pieces path = [name])
    (notVoid : Path.isVoid name = false) :
    resolve system none (.file ("./" ++ path)) = discover system "." := by
  have isParent : Path.parent? ("./" ++ path) = some "." :=
    (Path.parent?_eq_of_pieces (Path.pieces_point_of_name isAlone) notVoid).trans (by decide)
  exact resolve_file_of_parent? isParent (by decide)

/-- Sources from a file have the configuration of the directory that contains it,
which its entries decide on, unless the path is a name alone.  Then they have the
default configuration, and the same path after a point and a slash, which leads to
the same file, has that of the working directory: the two agree only where that
directory has the default configuration. -/
theorem resolve_file_eq_discover_iff
    (system : FileSystem) (path : String)
    (leads : system.isFile path = true) :
    (resolve system none (.file path) = discover system (Path.directoryOf path) ↔
        '/' ∈ path.toList ∨ discover system "." = .ok {}) ∧
      ('/' ∉ path.toList →
        system.find ("./" ++ path) = system.find path ∧
          (resolve system none (.file path) = resolve system none (.file ("./" ++ path)) ↔
            discover system "." = .ok {})) ∧
      ∃ name place entries,
        Path.fileName? path = some name ∧ (entries.lookup name).isSome ∧
          system.find (Path.directoryOf path) = .ok (place, some (.directory entries)) ∧
          ((∀ target, entries.lookup configFileName ≠ some (.link target)) →
            discover system (Path.directoryOf path) =
              ofEntries (Path.directoryOf path) entries) := by
  rcases FileSystem.exists_find_directoryOf leads with
    ⟨front, name, place, entries, parts, isPlain, isEntry, found⟩
  have hasSlash := Path.slash_mem_iff_of_pieces parts
  refine ⟨?_, fun noSlash => ?_, name, place, entries,
    Path.fileName?_eq_some parts isPlain.1 isPlain.2.1, isEntry, found, discover_eq_ofEntries found⟩
  · by_cases isAlone : front = []
    · subst isAlone
      rw [hasSlash, resolve_file_of_name parts isPlain.1,
        Path.directoryOf_of_name parts isPlain.1]
      simp [eq_comm]
    · exact iff_of_true (resolve_file_of_ne_nil parts isPlain.1 isAlone)
        (.inl (hasSlash.2 isAlone))
  · have isAlone : front = [] := not_not.1 (mt hasSlash.2 noSlash)
    subst isAlone
    refine ⟨FileSystem.find_point_of_name parts leads, ?_⟩
    rw [resolve_file_of_name parts isPlain.1, resolve_file_point_of_name parts isPlain.1]
    exact eq_comm

/-- A configuration with a name for the program root. -/
def workshopText : String := "[build]\nroot_name = 'R'\n"

/-- A source and a configuration beside it. -/
def workshopEntries : List (String × Node) :=
  [("Foo.tarn", .file "module Foo {}".toUTF8), ("tarn.toml", .file workshopText.toUTF8)]

/-- They stand in the working directory. -/
def workshop : FileSystem where
  root := .directory workshopEntries
  workingDirectory := []

theorem find_point_workshop :
    workshop.find "." = .ok ([], some (.directory workshopEntries)) :=
  FileSystem.find_point rfl

theorem isFile_workshop : workshop.isFile "Foo.tarn" = true := by
  have isPlain : FileSystem.IsPlain "Foo.tarn" := by
    unfold FileSystem.IsPlain
    decide
  have isAlone : Path.pieces "Foo.tarn" = ["Foo.tarn"] := by decide
  have notAbsolute : Path.isAbsolute "Foo.tarn" = false := by decide
  have isRoot : workshop.root.at? [] = some (.directory workshopEntries) := rfl
  refine FileSystem.isFile_eq_true_iff.2 ⟨["Foo.tarn"], "module Foo {}".toUTF8,
    FileSystem.followFrom_eq_ok_iff.2 ⟨by decide, by decide, by decide, ?_⟩⟩
  rw [notAbsolute, if_neg Bool.false_ne_true, isAlone]
  show FileSystem.follow workshop.root FileSystem.linkLimit [] ["Foo.tarn"] = _
  rw [FileSystem.follow_cons_entry isRoot isPlain rfl nofun, FileSystem.follow_nil]
  rfl

theorem discover_workshop :
    discover workshop "." = .ok { build := { rootName := "R" } } := by
  have isConfig : workshopEntries.lookup configFileName = some (.file workshopText.toUTF8) := by
    simp [workshopEntries, configFileName, List.lookup_cons]
  have shortEnough :
      ¬ FileSystem.pathLimit < (Path.join "." configFileName).utf8ByteSize := by decide
  have isText : String.fromUTF8? workshopText.toUTF8 = some workshopText := by decide +kernel
  have isRead : (ofToml workshopText.toList).toOption =
      some { build := { rootName := "R" } } := by decide +kernel
  rw [discover_eq_ofEntries find_point_workshop (by simp [isConfig]), ofEntries]
  simp only [isConfig, if_neg shortEnough, ofContent, isText]
  cases read : ofToml workshopText.toList with
  | error fault =>
      rw [read] at isRead
      cases isRead
  | ok config =>
      rw [read] at isRead
      cases isRead
      rfl

/-- The configuration beside the file is not looked at for its name alone. -/
theorem workshop_passes_over_configuration :
    workshop.isFile "Foo.tarn" = true ∧
      resolve workshop none (.file "Foo.tarn") ≠ discover workshop (Path.directoryOf "Foo.tarn") ∧
      ∃ entries, entries.lookup "Foo.tarn" ≠ none ∧
        ((∀ target, entries.lookup configFileName ≠ some (.link target)) →
          discover workshop (Path.directoryOf "Foo.tarn") =
            ofEntries (Path.directoryOf "Foo.tarn") entries) := by
  obtain ⟨agree, _, name, _, entries, isName, isEntry, _, decided⟩ :=
    resolve_file_eq_discover_iff workshop "Foo.tarn" isFile_workshop
  have sameName : Path.fileName? "Foo.tarn" = some "Foo.tarn" := by decide
  cases sameName.symm.trans isName
  refine ⟨isFile_workshop, fun same => ?_, entries, Option.isSome_iff_ne_none.1 isEntry, decided⟩
  rcases agree.1 same with hasSlash | isDefault
  · exact absurd hasSlash (by decide)
  · exact absurd (Except.ok.inj (discover_workshop.symm.trans isDefault)) (by decide)

/-- One file, one directory, and two configurations. -/
theorem workshop_spellings_differ :
    workshop.isFile "Foo.tarn" = true ∧
      workshop.find "./Foo.tarn" = workshop.find "Foo.tarn" ∧
      discover workshop (Path.directoryOf "Foo.tarn") = .ok { build := { rootName := "R" } } ∧
      resolve workshop none (.file "./Foo.tarn") = .ok { build := { rootName := "R" } } ∧
      resolve workshop none (.file "Foo.tarn") = .ok {} := by
  have isAlone : Path.pieces "Foo.tarn" = ["Foo.tarn"] := by decide
  have spelled : "./" ++ "Foo.tarn" = "./Foo.tarn" := by decide
  rw [← spelled, Path.directoryOf_of_name isAlone (by decide)]
  exact ⟨isFile_workshop, FileSystem.find_point_of_name isAlone isFile_workshop, discover_workshop,
    (resolve_file_point_of_name isAlone (by decide)).trans discover_workshop,
    resolve_file_of_name isAlone (by decide)⟩

end TarnBuild.BuildConfig
