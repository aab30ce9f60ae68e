import TarnBuild.Proofs.Build.Assembly

/-!
# Why units cannot be assembled

Units can be at fault in several ways at once.  The error then speaks of the
first fault in a fixed order: a wrong name, the reserved name, an import that
is no unit, imports that go round in a circle.  What the error says of the
units is true, and the faults that would contradict the way a build works
never arise.

As for success, the graph that lists the units and their imports may do so in
any order.
-/

namespace TarnBuild

/-! ## Dangling edges and circles of imports -/

namespace Graph

variable {Vertex : Type} [DecidableEq Vertex]

/-- A dangling edge that is found is an edge of the graph, and dangles. -/
theorem dependsOn_of_danglingEdge?
    {graph : Graph Vertex} {edge : DanglingEdge Vertex}
    (found : graph.danglingEdge? = some edge) :
    graph.DependsOn edge.vertex edge.missing ∧ edge.missing ∉ graph.vertices := by
  rcases List.exists_of_findSome?_eq_some found with ⟨entry, isEntry, isEdge⟩
  rcases Option.map_eq_some_iff.1 isEdge with ⟨target, isFound, rfl⟩
  have notVertex : target ∉ graph.vertices := by
    simpa using List.find?_some isFound
  exact ⟨⟨entry.2, successors?_eq_some_iff.2 isEntry, List.mem_of_find?_eq_some isFound⟩,
    notVertex⟩

theorem analyze_eq_error_iff {graph : Graph Vertex} {edge : DanglingEdge Vertex} :
    graph.analyze = .error edge ↔ graph.danglingEdge? = some edge := by
  rw [analyze]
  cases graph.danglingEdge? <;> simp

end Graph

namespace Units

variable {units : Units} {graph : Graph String}

/-- A closed path of imports that repeats nothing but its ends. -/
structure IsImportCycle (units : Units) (cycle : List String) : Prop where
  two_le_length : 2 ≤ cycle.length
  closed : cycle.head? = cycle.getLast?
  imports : cycle.IsChain units.Imports
  distinct : cycle.dropLast.Nodup

theorem ListedBy.isImportCycle
    (listed : units.ListedBy graph)
    {cycle : List String}
    (isCycle : graph.IsSimpleCycle cycle) :
    units.IsImportCycle cycle where
  two_le_length := isCycle.two_le_length
  closed := isCycle.closed
  imports := by
    rw [← listed.dependsOn_eq]
    exact isCycle.edges
  distinct := isCycle.distinct

/-! ## The stages -/

/-- A unit is known by a name that it does not declare. -/
def Misnamed (units : Units) (file : String) (unit : CompilationUnit) : Prop :=
  units.get? file = some unit ∧ file ≠ unit.declaredName

/-- The check of names stops at the first misnamed unit, and entries stand in
the order of their names. -/
theorem exists_of_checkNames_eq_error
    {error : BuildError}
    (failed : units.checkNames = .error error) :
    ∃ file unit, units.Misnamed file unit ∧
      (∀ other otherUnit, units.Misnamed other otherUnit → file ≤ other) ∧
        error = .nameMismatch file unit.declaredName := by
  unfold checkNames at failed
  split at failed
  · next file unit found =>
      rcases List.find?_eq_some_iff_append.1 found with
        ⟨differs, before, after, same, earlierNamed⟩
      have isEntry : (file, unit) ∈ units.entries := by simp [same]
      refine ⟨file, unit, ⟨NameMap.get?_eq_some_iff.2 isEntry, by simpa using differs⟩, ?_,
        (Except.error.inj failed).symm⟩
      rintro other otherUnit ⟨isOther, otherDiffers⟩
      have increasing := units.increasing
      have otherEntry := NameMap.get?_eq_some_iff.1 isOther
      rw [same] at increasing otherEntry
      rcases List.mem_append.1 otherEntry with isEarlier | isLater
      · exact (otherDiffers (by simpa using earlierNamed _ isEarlier)).elim
      · rcases List.mem_cons.1 isLater with isSame | isLater
        · rcases Prod.mk.inj isSame with ⟨rfl, _⟩
          exact Std.le_refl _
        · have tailIncreasing := (List.pairwise_append.1 increasing).2.1
          exact Std.le_of_lt ((List.pairwise_cons.1 tailIncreasing).1 _ isLater)
  · cases failed

/-- Once every unit declares its name, only the name of the root itself can be
at fault. -/
theorem eq_reservedName_of_checkReserved
    {rootName : String} {error : BuildError}
    (named : ∀ file unit, ¬ units.Misnamed file unit)
    (failed : units.checkReserved rootName = .error error) :
    rootName ∈ units.keys ∧ error = .reservedName rootName rootName := by
  unfold checkReserved at failed
  split at failed
  · next file unit found =>
      have isFound := NameMap.get?_eq_some_iff.2 (List.mem_of_find?_eq_some found)
      have declares : file = unit.declaredName := by
        by_contra differs
        exact named file unit ⟨isFound, differs⟩
      have isRoot : file = rootName := by
        have reserved := List.find?_some found
        simpa [← declares] using reserved
      subst isRoot
      exact ⟨NameMap.mem_keys_iff.2 ⟨unit, isFound⟩, (Except.error.inj failed).symm⟩
  · cases failed

theorem orderAlong_eq_error_iff {error : BuildError} :
    orderAlong graph = .error error ↔
      (∃ edge, graph.analyze = .error edge ∧
          error = .unresolvedImport edge.vertex edge.missing) ∨
        ∃ cycle, graph.analyze = .ok (.cyclic cycle) ∧ error = .circularImports cycle := by
  unfold orderAlong
  split
  · next edge analyzed => simp [analyzed, eq_comm]
  · next cycle analyzed => simp [analyzed, eq_comm]
  · next order analyzed => simp [analyzed]

end Units

/-! ## The error -/

namespace Assembler

variable {units : Units} {graph : Graph String}

/-- An error says of units what is true of them, and nothing that comes
earlier in the order of faults is true of them. -/
inductive Explains (rootName : String) (units : Units) : BuildError → Prop where
  /-- Of the units that do not declare their name it speaks of the first. -/
  | nameMismatch (file : String) (unit : CompilationUnit)
      (misnamed : units.Misnamed file unit)
      (first : ∀ other otherUnit, units.Misnamed other otherUnit → file ≤ other) :
      Explains rootName units (.nameMismatch file unit.declaredName)
  | reservedName
      (named : ∀ file unit, ¬ units.Misnamed file unit)
      (reserved : rootName ∈ units.keys) :
      Explains rootName units (.reservedName rootName rootName)
  | unresolvedImport (importer imported : String)
      (named : ∀ file unit, ¬ units.Misnamed file unit)
      (notReserved : rootName ∉ units.keys)
      (imports : units.Imports importer imported)
      (missing : imported ∉ units.keys) :
      Explains rootName units (.unresolvedImport importer imported)
  | circularImports (cycle : List String)
      (named : ∀ file unit, ¬ units.Misnamed file unit)
      (notReserved : rootName ∉ units.keys)
      (resolved : ∀ importer imported, units.Imports importer imported →
        imported ∈ units.keys)
      (isCycle : units.IsImportCycle cycle) :
      Explains rootName units (.circularImports cycle)

theorem Explains.ne_internal
    {rootName : String} {error : BuildError}
    (explains : Explains rootName units error) (fault : InternalFault) :
    error ≠ .internal fault := by
  rintro rfl
  cases explains

theorem explains_of_failed
    {assembler : Assembler} {error : BuildError}
    (listed : units.ListedBy graph)
    (failed : assembler.assembleAlong graph units = .error error) :
    Explains assembler.rootName units error := by
  rcases Except.bind_eq_error_iff.1 failed with failed | ⟨_, namesFit, failed⟩
  · rcases Units.exists_of_checkNames_eq_error failed with ⟨file, unit, misnamed, first, rfl⟩
    exact .nameMismatch file unit misnamed first
  have named : ∀ file unit, ¬ units.Misnamed file unit := fun file unit misnamed =>
    misnamed.2 (Units.checkNames_eq_ok_iff.1 namesFit file unit misnamed.1)
  rcases Except.bind_eq_error_iff.1 failed with failed | ⟨_, rootIsFree, failed⟩
  · rcases Units.eq_reservedName_of_checkReserved named failed with ⟨reserved, rfl⟩
    exact .reservedName named reserved
  have notReserved := (checks_eq_ok_iff.1 ⟨namesFit, rootIsFree⟩).2
  rcases Except.bind_eq_error_iff.1 failed with failed | ⟨order, ordered, failed⟩
  · rcases Units.orderAlong_eq_error_iff.1 failed with
      ⟨edge, analyzed, rfl⟩ | ⟨cycle, analyzed, rfl⟩
    · have found := Graph.analyze_eq_error_iff.1 analyzed
      rcases Graph.dependsOn_of_danglingEdge? found with ⟨edge, notVertex⟩
      rw [listed.dependsOn_eq] at edge
      rw [listed.vertices.mem_iff] at notVertex
      exact .unresolvedImport _ _ named notReserved edge notVertex
    · rcases Graph.analyze_eq_ok_iff.1 analyzed with ⟨closed, equation⟩
      exact .circularImports cycle named notReserved (listed.closed_iff.1 closed)
        (listed.isImportCycle (Graph.isSimpleCycle_of_search closed equation))
  · -- The order lists every unit once, so none is missing and none is left.
    rcases Graph.analyze_eq_ok_iff.1 (Units.orderAlong_eq_ok_iff.1 ordered) with
      ⟨closed, equation⟩
    have isOrder := Graph.isDependencyOrder_of_search closed equation
    rw [Units.bodiesInOrder_of_perm (isOrder.perm.trans listed.vertices)] at failed
    cases failed

/-- Units that cannot be put together fail with the error of their first fault,
which is never one that would contradict the way a build works. -/
theorem explains_of_assembleAlong_eq_error
    (assembler : Assembler) (units : Units) (graph : Graph String)
    (listed : units.ListedBy graph)
    (error : BuildError)
    (failed : assembler.assembleAlong graph units = .error error) :
    Explains assembler.rootName units error ∧ ∀ fault, error ≠ .internal fault :=
  have explains := explains_of_failed listed failed
  ⟨explains, explains.ne_internal⟩

/-- Two units that import each other, and one of them also what is no unit. -/
def entangled : Units :=
  ⟨[("A", ⟨.ofList ["B", "C"], .bare "A" .moduleKind⟩),
    ("B", ⟨.ofList ["A"], .bare "B" .classKind⟩)], by decide⟩

/-- A graph that lists them and the imports of the first the other way round. -/
def entangledReversed : Graph String :=
  ⟨[("B", ["A"]), ("A", ["C", "B"])], by decide⟩

/-- The missing import is reported although there is a circle, too. -/
theorem entangled_explains :
    entangled.ListedBy entangledReversed ∧
      (Assembler.mk .moduleSurface "P").assembleAlong entangledReversed entangled =
        .error (.unresolvedImport "A" "C") ∧
      Explains "P" entangled (.unresolvedImport "A" "C") := by
  have listed : entangled.ListedBy entangledReversed := by
    refine ⟨List.Perm.swap "A" "B" [], fun name unit found => ?_⟩
    have isEntry : (name, unit) ∈ entangled.entries := NameMap.get?_eq_some_iff.1 found
    simp only [entangled, List.mem_cons, List.not_mem_nil, or_false, Prod.mk.injEq] at isEntry
    rcases isEntry with ⟨rfl, rfl⟩ | ⟨rfl, rfl⟩
    · exact ⟨["C", "B"], rfl, List.Perm.swap "B" "C" []⟩
    · exact ⟨["A"], rfl, .refl _⟩
  have failed : (Assembler.mk .moduleSurface "P").assembleAlong entangledReversed entangled =
      .error (.unresolvedImport "A" "C") := rfl
  exact ⟨listed, failed,
    (explains_of_assembleAlong_eq_error _ _ _ listed _ failed).1⟩

end Assembler

end TarnBuild
