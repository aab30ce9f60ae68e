import TarnBuild.Proofs.Build.Directory

/-!
# Sources read in any order

Sources may be read one after the other or along a schedule that comes to each of
them.  Both ways succeed exactly when every source holds a unit, and then they
give the same units, each under the name of its source.  Otherwise the first way
reports the first source that fails, and the second way one that fails.

This needs no two sources with one name, which holds however they are collected.
-/

namespace TarnBuild.SourceSet

variable {system : FileSystem} {sources : SourceSet}

/-- How the sources of a build are come by: below a directory, as a file, or as a
text at hand. -/
inductive IsCollected (system : FileSystem) : SourceSet → Prop where
  | directory (root extension : String) (sources : SourceSet)
      (discovered : discover system root extension = .ok sources) :
      IsCollected system sources
  | file (path : String) (sources : SourceSet) (taken : ofFile path = .ok sources) :
      IsCollected system sources
  | text (text : String) : IsCollected system (ofText text)

/-- Collected sources have different names, whatever has become of them when they
are read. -/
theorem IsCollected.isDistinct
    {earlier : FileSystem}
    (collected : sources.IsCollected earlier) :
    sources.IsDistinct system := by
  cases collected with
  | directory root extension sources discovered =>
      unfold discover at discovered
      split at discovered
      · rcases Except.bind_eq_ok_iff.1 discovered with ⟨files, accepted, same⟩
        cases same
        exact isDistinct_of_distinctFiles accepted
      · cases discovered
  | file path sources taken =>
      unfold ofFile at taken
      split at taken
      · cases taken
        exact isDistinct_singleton system _
      · cases taken
  | text text => exact isDistinct_singleton system _

/-! ## Outcomes -/

/-- Units are those of some sources, each under the name of its source. -/
def AreHeld (system : FileSystem) (sources : SourceSet) (units : Units) : Prop :=
  ∃ pairs : List (String × CompilationUnit),
    List.Forall₂ (fun file pair => file.Holds system pair.2 ∧ pair.1 = file.nameFor pair.2)
      sources.files pairs ∧
    units.entries.Perm pairs

theorem areHeld_of_read
    {results : List (String × CompilationUnit)} {units : Units}
    (read : List.Forall₂ (fun file result => file.read system = .ok result)
      sources.files results)
    (perm : units.entries.Perm results) :
    sources.AreHeld system units :=
  ⟨results, read.imp fun _ _ => SourceFile.read_eq_ok_iff.1, perm⟩

theorem AreHeld.exists_holds
    {units : Units} {file : SourceFile}
    (held : sources.AreHeld system units)
    (isSource : file ∈ sources.files) :
    ∃ unit, file.Holds system unit := by
  rcases held with ⟨pairs, areHeld, _⟩
  rcases exists_of_forall₂_of_mem areHeld isSource with ⟨pair, _, holds, _⟩
  exact ⟨pair.2, holds⟩

theorem AreHeld.units_eq
    {units others : Units}
    (held : sources.AreHeld system units)
    (othersHeld : sources.AreHeld system others) :
    units = others := by
  rcases held with ⟨pairs, areHeld, perm⟩
  rcases othersHeld with ⟨otherPairs, othersAreHeld, othersPerm⟩
  have unique : Relator.RightUnique fun (file : SourceFile) (pair : String × CompilationUnit) =>
      file.Holds system pair.2 ∧ pair.1 = file.nameFor pair.2 := by
    intro file pair other isPair isOther
    rw [← SourceFile.read_eq_ok_iff] at isPair isOther
    exact Except.ok.inj (isPair.symm.trans isOther)
  rcases unique.forall₂ areHeld othersAreHeld with rfl
  exact NameMap.eq_of_entries_perm (perm.trans othersPerm.symm)

variable {outcome : Except BuildError Units}

/-- Reading distinct sources comes to the units of all of them, or to the error of
one that fails. -/
theorem IsReading.held_or_fails
    (isReading : IsReading system sources outcome)
    (isDistinct : sources.IsDistinct system) :
    (∃ units, sources.AreHeld system units ∧ outcome = .ok units) ∨
      ∃ file ∈ sources.files, ∃ error, file.Fails system error ∧ outcome = .error error := by
  rcases isReading.eq_ok_or_eq_error isDistinct with
    ⟨results, units, read, perm, same⟩ | ⟨file, isSource, error, failed, same⟩
  · exact .inl ⟨units, areHeld_of_read read perm, same⟩
  · exact .inr ⟨file, isSource, error, SourceFile.read_eq_error_iff.1 failed, same⟩

theorem IsReading.exists_eq_ok_iff
    (isReading : IsReading system sources outcome)
    (isDistinct : sources.IsDistinct system) :
    (∃ units, outcome = .ok units) ↔
      ∀ file ∈ sources.files, ∃ unit, file.Holds system unit := by
  rcases isReading.held_or_fails isDistinct with
    ⟨units, held, rfl⟩ | ⟨file, isSource, error, fails, rfl⟩
  · exact iff_of_true ⟨units, rfl⟩ fun file => held.exists_holds
  · refine iff_of_false (by simp) fun allHold => ?_
    rcases allHold file isSource with ⟨unit, holds⟩
    exact fails.not_holds holds

theorem IsReading.areHeld_of_eq_ok
    {units : Units}
    (isReading : IsReading system sources outcome)
    (isDistinct : sources.IsDistinct system)
    (read : outcome = .ok units) :
    sources.AreHeld system units := by
  rcases isReading.held_or_fails isDistinct with
    ⟨_, held, same⟩ | ⟨_, _, _, _, same⟩ <;> cases same.symm.trans read
  exact held

theorem IsReading.exists_fails_of_eq_error
    {error : BuildError}
    (isReading : IsReading system sources outcome)
    (isDistinct : sources.IsDistinct system)
    (failed : outcome = .error error) :
    ∃ file ∈ sources.files, file.Fails system error := by
  rcases isReading.held_or_fails isDistinct with
    ⟨_, _, same⟩ | ⟨file, isSource, _, fails, same⟩ <;> cases same.symm.trans failed
  exact ⟨file, isSource, fails⟩

/-- One after the other, reading stops at the first source that fails. -/
theorem exists_first_of_readAll_eq_error
    {error : BuildError}
    (isDistinct : sources.IsDistinct system)
    (failed : sources.readAll system = .error error) :
    ∃ before file after, sources.files = before ++ file :: after ∧
      (∀ other ∈ before, ∃ unit, other.Holds system unit) ∧ file.Fails system error := by
  rcases Except.bind_eq_error_iff.1 failed with stopped | ⟨results, read, _⟩
  · rcases Except.mapM_eq_error_iff.1 stopped with
      ⟨before, file, after, parts, areRead, stopped⟩
    refine ⟨before, file, after, parts, fun other isBefore => ?_,
      SourceFile.read_eq_error_iff.1 stopped⟩
    rcases areRead other isBefore with ⟨result, read⟩
    exact ⟨result.2, (SourceFile.read_eq_ok_iff.1 read).1⟩
  · -- All sources are read, so no error is left.
    have allHold : ∀ file ∈ sources.files, ∃ unit, file.Holds system unit := by
      intro file isSource
      rcases exists_of_forall₂_of_mem (Except.mapM_eq_ok_iff.1 read) isSource with
        ⟨result, _, read⟩
      exact ⟨result.2, (SourceFile.read_eq_ok_iff.1 read).1⟩
    rcases ((isReading_readAll system sources).exists_eq_ok_iff isDistinct).2 allHold with
      ⟨_, succeeded⟩
    cases failed.symm.trans succeeded

/-! ## Agreement -/

/-- Collected sources are read along a schedule with success exactly when they are
read one after the other with success, which is when every one of them holds a
unit.  Then both ways give these units; otherwise they report the first source
that fails, and one that fails. -/
theorem readAllAlong_agrees_with_readAll
    (earlier system : FileSystem) (sources : SourceSet) (schedule : List Nat)
    (collected : sources.IsCollected earlier)
    (scheduled : schedule.Perm sources.inOrder) :
    ((∃ units, sources.readAllAlong system schedule = .ok units) ↔
        ∃ units, sources.readAll system = .ok units) ∧
      ((∃ units, sources.readAll system = .ok units) ↔
        ∀ file ∈ sources.files, ∃ unit, file.Holds system unit) ∧
      (∀ units, sources.readAll system = .ok units →
        sources.readAllAlong system schedule = .ok units ∧ sources.AreHeld system units) ∧
      (∀ error, sources.readAll system = .error error →
        ∃ before file after, sources.files = before ++ file :: after ∧
          (∀ other ∈ before, ∃ unit, other.Holds system unit) ∧ file.Fails system error) ∧
      (∀ error, sources.readAllAlong system schedule = .error error →
        ∃ file ∈ sources.files, file.Fails system error) ∧
      ∀ fault, sources.readAll system ≠ .error (.internal fault) ∧
        sources.readAllAlong system schedule ≠ .error (.internal fault) := by
  have isDistinct : sources.IsDistinct system := collected.isDistinct
  have inOrder := isReading_readAll system sources
  have along : IsReading system sources (sources.readAllAlong system schedule) :=
    isReading_readAllAlong scheduled
  refine ⟨(along.exists_eq_ok_iff isDistinct).trans (inOrder.exists_eq_ok_iff isDistinct).symm,
    inOrder.exists_eq_ok_iff isDistinct, fun units read => ?_,
    fun error failed => exists_first_of_readAll_eq_error isDistinct failed,
    fun error failed => along.exists_fails_of_eq_error isDistinct failed,
    fun fault => ⟨fun failed => ?_, fun failed => ?_⟩⟩
  · have held := inOrder.areHeld_of_eq_ok isDistinct read
    have allHold := (inOrder.exists_eq_ok_iff isDistinct).1 ⟨units, read⟩
    rcases (along.exists_eq_ok_iff isDistinct).2 allHold with ⟨others, othersRead⟩
    have othersHeld := along.areHeld_of_eq_ok isDistinct othersRead
    rcases held.units_eq othersHeld with rfl
    exact ⟨othersRead, held⟩
  · rcases inOrder.exists_fails_of_eq_error isDistinct failed with ⟨file, _, fails⟩
    exact fails.ne_internal fault rfl
  · rcases along.exists_fails_of_eq_error isDistinct failed with ⟨file, _, fails⟩
    exact fails.ne_internal fault rfl

/-- Two files, of which the second is no text. -/
def brokenPair : List (String × Node) :=
  [("M.tarn", .file ⟨#[]⟩), ("N.tarn", .file ⟨#[255]⟩)]

theorem isTree_brokenPair : (Node.directory brokenPair).IsTree := by
  have isM : Node.IsName "M.tarn" := by constructor <;> decide
  have isN : Node.IsName "N.tarn" := by constructor <;> decide
  exact .directory _ (by decide) (by simp [brokenPair, isM, isN])
    (by simp [brokenPair, Node.IsTree.file])

/-- Neither way comes to units when the second file is read first. -/
theorem brokenPair_fails_both_ways :
    let system : FileSystem := ⟨.directory brokenPair, []⟩
    let sources : SourceSet := ⟨[⟨some "M", .file "/M.tarn"⟩, ⟨some "N", .file "/N.tarn"⟩]⟩
    sources.IsCollected system ∧ [1, 0].Perm sources.inOrder ∧
      (∃ error, sources.readAll system = .error error) ∧
      ∃ error, sources.readAllAlong system [1, 0] = .error error := by
  intro system sources
  have isDirectory : system.node? "/" = some (.directory brokenPair) :=
    FileSystem.node?_slash rfl
  have sorted : Node.byName brokenPair = brokenPair :=
    List.mergeSort_of_pairwise (by decide)
  have files : (Node.directory brokenPair).files = [["M.tarn"], ["N.tarn"]] := by
    rw [Node.files_directory_eq, sorted]
    rfl
  have discovered : discover system "/" "tarn" = .ok sources := by
    unfold discover
    simp only [isDirectory, files]
    rfl
  have scheduled : [1, 0].Perm sources.inOrder := by decide
  have collected : sources.IsCollected system := .directory _ _ _ discovered
  obtain ⟨along, inOrder, _⟩ :=
    readAllAlong_agrees_with_readAll system system sources [1, 0] collected scheduled
  have notText : String.fromUTF8? ⟨#[255]⟩ = none := by decide +kernel
  have unreadable : system.readText "/N.tarn" = .error .notText := by
    have read : system.readText (["N.tarn"].foldl Path.join "/") = _ :=
      FileSystem.readText_of_at? isTree_brokenPair isDirectory rfl
    rwa [notText] at read
  have notHeld : ¬ ∀ file ∈ sources.files, ∃ unit, file.Holds system unit := by
    intro allHold
    rcases allHold ⟨some "N", .file "/N.tarn"⟩ (by simp [sources]) with ⟨_, _, available, _⟩
    simp [SourceFile.content, unreadable, Except.mapError] at available
  refine ⟨collected, scheduled, ?_, ?_⟩
  · cases read : sources.readAll system with
    | ok units => exact (notHeld (inOrder.1 ⟨units, read⟩)).elim
    | error error => exact ⟨error, rfl⟩
  · cases read : sources.readAllAlong system [1, 0] with
    | ok units => exact (notHeld (inOrder.1 (along.1 ⟨units, read⟩))).elim
    | error error => exact ⟨error, rfl⟩

end TarnBuild.SourceSet
