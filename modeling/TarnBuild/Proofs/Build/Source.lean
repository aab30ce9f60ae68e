import TarnBuild.Build.Source
import TarnBuild.Proofs.Except
import TarnBuild.Proofs.Name.Map

/-!
# Reading the sources of a build

Sources have distinct identifiers, or else two of them are named.  Reading them
along any schedule that comes to each of them gives the unit of each, or the
error of one that cannot be read; units under distinct identifiers are all
kept.
-/

namespace TarnBuild

namespace SourceFile

variable {system : FileSystem} {file : SourceFile} {unit : CompilationUnit}
  {result : String × CompilationUnit} {error : BuildError}

/-! ## One source -/

/-- The text of a source can be had, and is that of a unit. -/
def Holds (system : FileSystem) (file : SourceFile) (unit : CompilationUnit) : Prop :=
  ∃ text, file.content system = .ok text ∧ parse text.toList = .ok unit

/-- The name that a source with a unit is known by. -/
def nameFor (file : SourceFile) (unit : CompilationUnit) : String :=
  file.identifier?.getD unit.declaredName

/-- What is wrong with a source: its text cannot be had, or is that of no unit. -/
inductive Fails (system : FileSystem) (file : SourceFile) : BuildError → Prop where
  | content (error : BuildError) (unavailable : file.content system = .error error) :
      Fails system file error
  | text (text : String) (error : SourceError) (available : file.content system = .ok text)
      (malformed : parse text.toList = .error error) :
      Fails system file (.malformedSource file.displayName (report text.toList error))

theorem read_eq_ok_iff :
    file.read system = .ok result ↔
      file.Holds system result.2 ∧ result.1 = file.nameFor result.2 := by
  constructor
  · intro read
    rcases Except.bind_eq_ok_iff.1 read with ⟨text, available, read⟩
    dsimp only at read
    split at read
    · cases read
    · next unit parsed =>
        cases read
        exact ⟨⟨text, available, parsed⟩, rfl⟩
  · rcases result with ⟨name, unit⟩
    rintro ⟨⟨text, available, parsed⟩, named⟩
    refine Except.bind_eq_ok_iff.2 ⟨text, available, ?_⟩
    simp only [parsed]
    exact congrArg (fun name => Except.ok (name, unit)) named.symm

theorem read_eq_error_iff : file.read system = .error error ↔ file.Fails system error := by
  constructor
  · intro failed
    rcases Except.bind_eq_error_iff.1 failed with failed | ⟨text, available, failed⟩
    · exact .content error failed
    · dsimp only at failed
      split at failed
      · next fault malformed =>
          cases failed
          exact .text text fault available malformed
      · cases failed
  · intro fails
    cases fails with
    | content error unavailable => exact Except.bind_eq_error_iff.2 (.inl unavailable)
    | text text fault available malformed =>
        refine Except.bind_eq_error_iff.2 (.inr ⟨text, available, ?_⟩)
        simp only [malformed]

/-- A source with an identifier of its own is known by it. -/
theorem fst_eq_of_read
    {identifier : String}
    (known : file.identifier? = some identifier)
    (read : file.read system = .ok result) :
    result.1 = identifier := by
  rw [(read_eq_ok_iff.1 read).2, nameFor, known, Option.getD_some]

theorem Fails.not_holds (fails : file.Fails system error) : ¬ file.Holds system unit := by
  intro holds
  have read : file.read system = .ok (file.nameFor unit, unit) := read_eq_ok_iff.2 ⟨holds, rfl⟩
  cases (read_eq_error_iff.2 fails).symm.trans read

/-- A source that fails is no contradiction of the build. -/
theorem Fails.ne_internal
    (fails : file.Fails system error)
    (fault : InternalFault) :
    error ≠ .internal fault := by
  rintro rfl
  cases fails with
  | content _ unavailable =>
      unfold SourceFile.content at unavailable
      split at unavailable
      · rcases Except.mapError_eq_error_iff.1 unavailable with ⟨_, _, same⟩
        cases same
      · cases unavailable

end SourceFile

namespace SourceSet

variable {system : FileSystem} {sources : SourceSet}

/-! ## Distinct identifiers -/

/-- The source at a path, under its identifier. -/
def sourceAt (entry : String × String) : SourceFile :=
  ⟨some entry.1, .file entry.2⟩

theorem distinctFiles_eq_ok_iff
    {seen entries : List (String × String)} {files : List SourceFile}
    (seenDistinct : (seen.map Prod.fst).Nodup) :
    distinctFiles seen entries = .ok files ↔
      (entries.map Prod.fst ++ seen.map Prod.fst).Nodup ∧ files = entries.map sourceAt := by
  induction entries generalizing seen files with
  | nil => simp [distinctFiles, seenDistinct, eq_comm]
  | cons entry rest ih =>
      rcases entry with ⟨identifier, path⟩
      rw [distinctFiles]
      split
      · next first found =>
          have isSeen : identifier ∈ seen.map Prod.fst :=
            List.mem_map.2 ⟨_, mem_of_lookup_eq_some found, rfl⟩
          simp only [reduceCtorEq, false_iff, not_and]
          intro distinct
          exact ((List.nodup_cons.1 distinct).1 (List.mem_append_right _ isSeen)).elim
      · next notFound =>
          have notSeen := lookup_eq_none_iff_notMem.1 notFound
          have nextDistinct : (((identifier, path) :: seen).map Prod.fst).Nodup :=
            List.nodup_cons.2 ⟨notSeen, seenDistinct⟩
          -- The identifier goes from what is still to come to what has been seen.
          have moved : (rest.map Prod.fst ++ identifier :: seen.map Prod.fst).Nodup ↔
              (identifier :: (rest.map Prod.fst ++ seen.map Prod.fst)).Nodup :=
            List.perm_middle.nodup_iff
          simp only [Except.bind_eq_ok_iff, ih nextDistinct, List.map_cons, moved]
          simp [pure, Except.pure, sourceAt, eq_comm]

theorem distinctFiles_nil_eq_ok_iff
    {entries : List (String × String)} {files : List SourceFile} :
    distinctFiles [] entries = .ok files ↔
      (entries.map Prod.fst).Nodup ∧ files = entries.map sourceAt := by
  rw [distinctFiles_eq_ok_iff (by exact List.nodup_nil), List.map_nil, List.append_nil]

/-- The first entry whose identifier has been found before is reported, with the
path under which it was found. -/
theorem exists_of_distinctFiles_eq_error
    {seen entries : List (String × String)} {error : BuildError}
    (seenDistinct : (seen.map Prod.fst).Nodup)
    (failed : distinctFiles seen entries = .error error) :
    ∃ before identifier first second after,
      entries = before ++ (identifier, second) :: after ∧
        (before.map Prod.fst ++ seen.map Prod.fst).Nodup ∧
        (identifier, first) ∈ before ++ seen ∧
        error = .duplicateFile identifier first second := by
  induction entries generalizing seen with
  | nil => cases failed
  | cons entry rest ih =>
      rcases entry with ⟨identifier, path⟩
      rw [distinctFiles] at failed
      split at failed
      · next first found =>
          exact ⟨[], identifier, first, path, rest, rfl, seenDistinct,
            mem_of_lookup_eq_some found, (Except.error.inj failed).symm⟩
      · next notFound =>
          have notSeen := lookup_eq_none_iff_notMem.1 notFound
          have nextDistinct : (((identifier, path) :: seen).map Prod.fst).Nodup :=
            List.nodup_cons.2 ⟨notSeen, seenDistinct⟩
          rcases Except.bind_eq_error_iff.1 failed with failed | ⟨_, _, failed⟩
          · rcases ih nextDistinct failed with
              ⟨before, other, first, second, after, rfl, distinct, isFound, reported⟩
            refine ⟨(identifier, path) :: before, other, first, second, after, rfl, ?_, ?_,
              reported⟩
            · exact List.perm_middle.nodup_iff.1 distinct
            · exact List.perm_middle.mem_iff.1 isFound
          · cases failed

theorem exists_of_distinctFiles_nil_eq_error
    {entries : List (String × String)} {error : BuildError}
    (failed : distinctFiles [] entries = .error error) :
    ∃ before identifier first second after,
      entries = before ++ (identifier, second) :: after ∧
        (before.map Prod.fst).Nodup ∧ (identifier, first) ∈ before ∧
        error = .duplicateFile identifier first second := by
  have found := exists_of_distinctFiles_eq_error (by exact List.nodup_nil) failed
  simpa only [List.map_nil, List.append_nil] using found

/-! ## Units under identifiers -/

theorem exists_collect_eq_ok
    {pairs : List (String × CompilationUnit)} {units : Units}
    (distinct : (pairs.map Prod.fst ++ units.keys).Nodup) :
    ∃ collected, collect pairs units = .ok collected ∧
      collected.entries.Perm (pairs ++ units.entries) := by
  induction pairs generalizing units with
  | nil => exact ⟨units, rfl, .refl _⟩
  | cons pair rest ih =>
      rcases pair with ⟨identifier, unit⟩
      have isNew : identifier ∉ units.keys := fun isKey =>
        (List.nodup_cons.1 distinct).1 (List.mem_append_right _ isKey)
      have notFound := NameMap.get?_eq_none_iff.2 isNew
      have moved := ((NameMap.keys_insert_perm notFound unit).append_left
        (rest.map Prod.fst)).trans List.perm_middle
      rcases ih (moved.nodup_iff.2 distinct) with ⟨collected, result, perm⟩
      refine ⟨collected, by rw [collect, notFound]; exact result, perm.trans ?_⟩
      exact ((NameMap.entries_insert_perm notFound unit).append_left rest).trans
        List.perm_middle

/-! ## Schedules -/

/-- What reading some sources can come to: the units of all of them, or the
error of one that cannot be read. -/
inductive IsReading (system : FileSystem) (sources : SourceSet) :
    Except BuildError Units → Prop where
  | all (results : List (String × CompilationUnit))
      (read : List.Forall₂ (fun file result => file.read system = .ok result)
        sources.files results) :
      IsReading system sources (collect results .empty)
  | fails (file : SourceFile) (isSource : file ∈ sources.files)
      (error : BuildError) (failed : file.read system = .error error) :
      IsReading system sources (.error error)

theorem isReading_readAll (system : FileSystem) (sources : SourceSet) :
    IsReading system sources (sources.readAll system) := by
  unfold readAll
  cases read : sources.files.mapM (SourceFile.read system) with
  | ok results => exact .all results (Except.mapM_eq_ok_iff.1 read)
  | error error =>
      rcases Except.exists_of_mapM_eq_error read with ⟨file, isSource, failed⟩
      exact .fails file isSource error failed

/-- What is read at the places of a schedule is found under each of them. -/
theorem exists_lookup_of_readPlaces
    {files : List SourceFile} {places : List Nat}
    {results : List (Nat × String × CompilationUnit)}
    (read : readPlaces system files places = .ok results)
    {place : Nat} (isPlace : place ∈ places)
    {file : SourceFile} (isFile : files[place]? = some file) :
    ∃ result, results.lookup place = some result ∧ file.read system = .ok result := by
  induction places generalizing results with
  | nil => cases isPlace
  | cons first rest ih =>
      rw [readPlaces] at read
      split at read
      · next missing =>
          have different : place ≠ first := by
            rintro rfl
            simp [isFile] at missing
          exact ih read ((List.mem_cons.1 isPlace).resolve_left different)
      · next firstFile isFirstFile =>
          rcases Except.bind_eq_ok_iff.1 read with ⟨result, firstRead, read⟩
          rcases Except.bind_eq_ok_iff.1 read with ⟨others, othersRead, same⟩
          cases same
          by_cases isFirst : place = first
          · subst isFirst
            rw [isFile] at isFirstFile
            cases isFirstFile
            exact ⟨result, by simp, firstRead⟩
          · have inRest := (List.mem_cons.1 isPlace).resolve_left isFirst
            simpa [List.lookup_cons, beq_false_of_ne isFirst] using ih othersRead inRest

theorem exists_of_readPlaces_eq_error
    {files : List SourceFile} {places : List Nat} {error : BuildError}
    (failed : readPlaces system files places = .error error) :
    ∃ file ∈ files, file.read system = .error error := by
  induction places with
  | nil => cases failed
  | cons first rest ih =>
      rw [readPlaces] at failed
      split at failed
      · exact ih failed
      · next file isFile =>
          rcases Except.bind_eq_error_iff.1 failed with failed | ⟨_, _, failed⟩
          · exact ⟨file, List.mem_of_getElem? isFile, failed⟩
          rcases Except.bind_eq_error_iff.1 failed with failed | ⟨_, _, failed⟩
          · exact ih failed
          · cases failed

/-- What is found under the places of a list, place by place, stands in the
order of the list. -/
theorem forall₂_filterMap_range
    {Item Result : Type} {items : List Item}
    {Yields : Item → Result → Prop} {found : Nat → Option Result}
    (isFound : ∀ place item, items[place]? = some item →
      ∃ result, found place = some result ∧ Yields item result) :
    List.Forall₂ Yields items ((List.range items.length).filterMap found) := by
  induction items generalizing found with
  | nil => exact .nil
  | cons item rest ih =>
      rcases isFound 0 item rfl with ⟨result, foundFirst, yields⟩
      rw [List.length_cons, List.range_succ_eq_map, List.filterMap_cons_some foundFirst,
        List.filterMap_map]
      exact .cons yields (ih fun place other isOther => isFound (place + 1) other isOther)

/-- A schedule that comes to every source brings its results into the order of
the sources. -/
theorem isReading_readAllAlong
    {schedule : List Nat}
    (scheduled : schedule.Perm sources.inOrder) :
    IsReading system sources (sources.readAllAlong system schedule) := by
  unfold readAllAlong
  cases read : readPlaces system sources.files schedule with
  | ok results =>
      refine .all _ (forall₂_filterMap_range fun place file isFile => ?_)
      have isPlace : place ∈ schedule := by
        rw [scheduled.mem_iff, inOrder, List.mem_range]
        exact (List.getElem?_eq_some_iff.1 isFile).1
      exact exists_lookup_of_readPlaces read isPlace isFile
  | error error =>
      rcases exists_of_readPlaces_eq_error read with ⟨file, isSource, failed⟩
      exact .fails file isSource error failed

/-! ## Outcomes of reading -/

/-- Whatever is read from some sources, no identifier is repeated in it. -/
def IsDistinct (system : FileSystem) (sources : SourceSet) : Prop :=
  ∀ results, List.Forall₂ (fun file result => file.read system = .ok result)
    sources.files results → (results.map Prod.fst).Nodup

theorem isDistinct_singleton (system : FileSystem) (file : SourceFile) :
    IsDistinct system ⟨[file]⟩ := by
  intro results read
  rcases List.forall₂_cons_left_iff.1 read with ⟨result, others, _, readOthers, rfl⟩
  cases readOthers
  exact List.nodup_singleton result.1

theorem isDistinct_of_distinctFiles
    {entries : List (String × String)} {files : List SourceFile}
    (accepted : distinctFiles [] entries = .ok files) :
    IsDistinct system ⟨files⟩ := by
  rcases distinctFiles_nil_eq_ok_iff.1 accepted with ⟨distinct, rfl⟩
  intro results read
  have sameNames : List.Forall₂ (fun entry result => entry.1 = result.1) entries results :=
    (List.forall₂_map_left_iff.1 read).imp fun _ _ read =>
      (SourceFile.fst_eq_of_read rfl read).symm
  have names : entries.map Prod.fst = results.map Prod.fst := by
    rwa [← List.forall₂_eq_eq_eq, List.forall₂_map_left_iff, List.forall₂_map_right_iff]
  simpa [names] using distinct

/-- Distinct sources are all kept, unless one cannot be read. -/
theorem IsReading.eq_ok_or_eq_error
    {outcome : Except BuildError Units}
    (isReading : IsReading system sources outcome)
    (isDistinct : sources.IsDistinct system) :
    (∃ results units,
        List.Forall₂ (fun file result => file.read system = .ok result) sources.files results ∧
        units.entries.Perm results ∧ outcome = .ok units) ∨
      ∃ file ∈ sources.files, ∃ error,
        file.read system = .error error ∧ outcome = .error error := by
  cases isReading with
  | all results read =>
      have distinct : (results.map Prod.fst ++ (NameMap.empty : Units).keys).Nodup := by
        simpa [NameMap.keys, NameMap.empty] using isDistinct results read
      rcases exists_collect_eq_ok distinct with ⟨units, collected, perm⟩
      exact .inl ⟨results, units, read, by simpa [NameMap.empty] using perm, collected⟩
  | fails file isSource error failed => exact .inr ⟨file, isSource, error, failed, rfl⟩

end SourceSet

end TarnBuild
