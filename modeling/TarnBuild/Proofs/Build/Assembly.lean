import TarnBuild.Build.Assembly
import TarnBuild.Proofs.Except
import TarnBuild.Proofs.Graph.Order
import TarnBuild.Proofs.Name.Map

/-!
# When units can be assembled

Units can be assembled exactly when each is known by the name it declares,
none has the name of the program root, every import is a unit and imports do
not go round in a circle.  The program root then holds their bodies, each once
and after all that its unit imports.

This is shown for every graph that lists the units and their imports, whatever
the order in which it lists them.
-/

namespace TarnBuild

namespace Units

variable {units : Units} {graph : Graph String}

/-! ## Imports as a graph -/

/-- The unit of one name imports another name. -/
def Imports (units : Units) (importer imported : String) : Prop :=
  ∃ unit, units.get? importer = some unit ∧ imported ∈ unit.imports

/-- A graph lists the names of the units, and for each unit its imports, each
of them once and in any order. -/
structure ListedBy (units : Units) (graph : Graph String) : Prop where
  vertices : graph.vertices.Perm units.keys
  successors : ∀ name unit, units.get? name = some unit →
    ∃ imports, graph.successors? name = some imports ∧
      imports.Perm unit.imports.toList

/-- The graph of imports lists the units in the order of their names. -/
theorem listedBy_importGraph (units : Units) :
    units.ListedBy units.importGraph where
  vertices := by simp [importGraph, Graph.vertices, NameMap.keys, Function.comp_def]
  successors name unit found := by
    refine ⟨unit.imports.toList, ?_, .refl _⟩
    rw [Graph.successors?_eq_some_iff]
    exact List.mem_map.2 ⟨(name, unit), NameMap.get?_eq_some_iff.1 found, rfl⟩

/-- The edges of such a graph are the imports. -/
theorem ListedBy.dependsOn_eq
    (listed : units.ListedBy graph) :
    graph.DependsOn = units.Imports := by
  ext importer imported
  constructor
  · rintro ⟨successors, successorsListed, isSuccessor⟩
    have isKey : importer ∈ units.keys := listed.vertices.mem_iff.1
      (Graph.mem_vertices_of_successors? successorsListed)
    rcases NameMap.mem_keys_iff.1 isKey with ⟨unit, found⟩
    rcases listed.successors importer unit found with ⟨imports, importsListed, perm⟩
    rw [importsListed] at successorsListed
    cases successorsListed
    exact ⟨unit, found, perm.mem_iff.1 isSuccessor⟩
  · rintro ⟨unit, found, isImport⟩
    rcases listed.successors importer unit found with ⟨imports, importsListed, perm⟩
    exact ⟨imports, importsListed, perm.mem_iff.2 isImport⟩

theorem ListedBy.closed_iff
    (listed : units.ListedBy graph) :
    graph.Closed ↔
      ∀ importer imported, units.Imports importer imported → imported ∈ units.keys := by
  rw [Graph.Closed, listed.dependsOn_eq]
  simp only [listed.vertices.mem_iff]

theorem ListedBy.hasCycle_iff
    (listed : units.ListedBy graph) :
    graph.HasCycle ↔ ∃ name, Relation.TransGen units.Imports name name := by
  rw [Graph.HasCycle, listed.dependsOn_eq]

/-! ## The stages -/

theorem checkNames_eq_ok_iff :
    units.checkNames = .ok () ↔
      ∀ name unit, units.get? name = some unit → name = unit.declaredName := by
  have nothingFound : units.checkNames = .ok () ↔
      units.entries.find? (fun entry => entry.1 ≠ entry.2.declaredName) = none := by
    unfold checkNames
    split
    · next file unit found => simp only [found, reduceCtorEq]
    · next notFound => simp only [notFound]
  rw [nothingFound, List.find?_eq_none]
  constructor
  · intro noneDiffers name unit found
    simpa using noneDiffers (name, unit) (NameMap.get?_eq_some_iff.1 found)
  · intro named entry isEntry
    simpa using named entry.1 entry.2 (NameMap.get?_eq_some_iff.2 isEntry)

theorem checkReserved_eq_ok_iff {rootName : String} :
    units.checkReserved rootName = .ok () ↔
      ∀ name unit, units.get? name = some unit →
        unit.declaredName ≠ rootName ∧ name ≠ rootName := by
  have nothingFound : units.checkReserved rootName = .ok () ↔
      units.entries.find?
        (fun entry => entry.2.declaredName = rootName || entry.1 = rootName) = none := by
    unfold checkReserved
    split
    · next file unit found => simp only [found, reduceCtorEq]
    · next notFound => simp only [notFound]
  rw [nothingFound, List.find?_eq_none]
  constructor
  · intro noneReserved name unit found
    simpa using noneReserved (name, unit) (NameMap.get?_eq_some_iff.1 found)
  · intro free entry isEntry
    simpa using free entry.1 entry.2 (NameMap.get?_eq_some_iff.2 isEntry)

theorem orderAlong_eq_ok_iff {order : List String} :
    orderAlong graph = .ok order ↔ graph.analyze = .ok (.acyclic order) := by
  unfold orderAlong
  split <;> simp [*]

/-- An order that lists every unit once leads to the bodies in that order. -/
theorem bodiesInOrder_of_perm
    {order : List String}
    (perm : order.Perm units.keys) :
    units.bodiesInOrder order =
      .ok (order.filterMap fun name => (units.get? name).map CompilationUnit.body) := by
  induction order generalizing units with
  | nil =>
      have empty : units.entries = [] := by
        simpa [NameMap.keys] using List.nil_perm.1 perm
      simp [bodiesInOrder, empty]
  | cons name others ih =>
      have isKey : name ∈ units.keys := perm.mem_iff.1 List.mem_cons_self
      rcases NameMap.mem_keys_iff.1 isKey with ⟨unit, found⟩
      have distinct : (name :: others).Nodup := perm.nodup_iff.2 units.nodup_keys
      have notOther := (List.nodup_cons.1 distinct).1
      -- Erasing the first name leaves exactly the others.
      have othersPerm : others.Perm (NameMap.erase units name).keys := by
        have filtered := perm.filter (· != name)
        rw [NameMap.keys_erase]
        rw [List.filter_cons_of_neg (by simp), List.filter_eq_self.2] at filtered
        · exact filtered
        · intro other isOther
          simp only [bne_iff_ne, ne_eq]
          rintro rfl
          exact notOther isOther
      have sameBodies :
          (others.filterMap fun other =>
              ((NameMap.erase units name).get? other).map CompilationUnit.body) =
            others.filterMap fun other =>
              (units.get? other).map CompilationUnit.body := by
        apply List.filterMap_congr
        intro other isOther
        rw [NameMap.get?_erase_of_ne]
        rintro rfl
        exact notOther isOther
      rw [bodiesInOrder, found]
      simp only [ih othersPerm, sameBodies]
      simp [found, bind, Except.bind, pure, Except.pure]

end Units

/-! ## The program root -/

namespace Assembler

variable {units : Units} {graph : Graph String}

/-- What units must be like to be put together under a root of a given name. -/
structure CanAssemble (rootName : String) (units : Units) : Prop where
  named : ∀ name unit, units.get? name = some unit → name = unit.declaredName
  notReserved : rootName ∉ units.keys
  resolved : ∀ importer imported, units.Imports importer imported →
    imported ∈ units.keys
  notCircular : ¬ ∃ name, Relation.TransGen units.Imports name name

/-- A construct is the program root around units: it has nothing of its own,
and holds their bodies, each once and after all that its unit imports. -/
structure IsProgram (assembler : Assembler) (units : Units)
    (program : Construct) : Prop where
  name : program.name = assembler.rootName
  kind : program.kind = assembler.surface.rootKind
  typeParameters : program.typeParameters = []
  constants : program.constants = []
  functions : program.functions = []
  nested_perm : program.nested.Perm (units.entries.map fun entry => entry.2.body)
  imports_first : ∀ importer imported unit importedUnit,
    units.get? importer = some unit → imported ∈ unit.imports →
    units.get? imported = some importedUnit →
    StandsBefore program.nested importedUnit.body unit.body

/-- The checks that come before the order is looked for. -/
theorem checks_eq_ok_iff {rootName : String} :
    (units.checkNames = .ok () ∧ units.checkReserved rootName = .ok ()) ↔
      (∀ name unit, units.get? name = some unit → name = unit.declaredName) ∧
        rootName ∉ units.keys := by
  rw [Units.checkNames_eq_ok_iff, Units.checkReserved_eq_ok_iff]
  refine and_congr_right fun named => ?_
  rw [NameMap.mem_keys_iff]
  constructor
  · rintro free ⟨unit, found⟩
    exact (free rootName unit found).2 rfl
  · intro notReserved name unit found
    have different : name ≠ rootName := by
      rintro rfl
      exact notReserved ⟨unit, found⟩
    exact ⟨named name unit found ▸ different, different⟩

theorem assembleAlong_eq_ok_iff
    {assembler : Assembler} {program : Construct} :
    assembler.assembleAlong graph units = .ok program ↔
      (units.checkNames = .ok () ∧ units.checkReserved assembler.rootName = .ok ()) ∧
        ∃ order, graph.analyze = .ok (.acyclic order) ∧
          ∃ bodies, units.bodiesInOrder order = .ok bodies ∧
            program = assembler.root bodies := by
  simp only [assembleAlong, Except.bind_eq_ok_iff, Units.orderAlong_eq_ok_iff]
  constructor
  · rintro ⟨_, names, _, reserved, order, found, bodies, inOrder, same⟩
    exact ⟨⟨names, reserved⟩, order, found, bodies, inOrder, (Except.ok.inj same).symm⟩
  · rintro ⟨⟨names, reserved⟩, order, found, bodies, inOrder, rfl⟩
    exact ⟨(), names, (), reserved, order, found, bodies, inOrder, rfl⟩

/-- The bodies of units along a dependency order make a program root. -/
theorem isProgram_root
    (assembler : Assembler) {order : List String}
    (listed : units.ListedBy graph)
    (isOrder : graph.IsDependencyOrder order) :
    assembler.IsProgram units (assembler.root
      (order.filterMap fun name => (units.get? name).map CompilationUnit.body)) where
  name := rfl
  kind := rfl
  typeParameters := rfl
  constants := rfl
  functions := rfl
  nested_perm := by
    rw [← NameMap.filterMap_get?_keys]
    exact (isOrder.perm.trans listed.vertices).filterMap _
  imports_first importer imported unit importedUnit found isImport importedFound := by
    have edge : graph.DependsOn importer imported := by
      rw [listed.dependsOn_eq]
      exact ⟨unit, found, isImport⟩
    have bodies := (isOrder.after importer imported edge).filterMap
      fun name => (units.get? name).map CompilationUnit.body
    simpa [StandsBefore, root, found, importedFound] using bodies

theorem exists_assembleAlong_eq_ok_iff
    {assembler : Assembler}
    (listed : units.ListedBy graph) :
    (∃ program, assembler.assembleAlong graph units = .ok program) ↔
      CanAssemble assembler.rootName units := by
  constructor
  · rintro ⟨program, assembled⟩
    rcases assembleAlong_eq_ok_iff.1 assembled with ⟨checks, order, found, _⟩
    rcases checks_eq_ok_iff.1 checks with ⟨named, notReserved⟩
    rcases Graph.analyze_eq_ok_iff.1 found with ⟨closed, equation⟩
    have noCycle := (Graph.isDependencyOrder_of_search closed equation).not_hasCycle
    exact
      { named := named
        notReserved := notReserved
        resolved := listed.closed_iff.1 closed
        notCircular := listed.hasCycle_iff.not.1 noCycle }
  · intro can
    have closed : graph.Closed := listed.closed_iff.2 can.resolved
    have noCycle : ¬ graph.HasCycle := listed.hasCycle_iff.not.2 can.notCircular
    rcases Graph.exists_search_eq_acyclic closed noCycle with ⟨order, equation⟩
    have isOrder := Graph.isDependencyOrder_of_search closed equation
    have bodies := Units.bodiesInOrder_of_perm (isOrder.perm.trans listed.vertices)
    exact ⟨_, assembleAlong_eq_ok_iff.2
      ⟨checks_eq_ok_iff.2 ⟨can.named, can.notReserved⟩, order,
        Graph.analyze_eq_ok_iff.2 ⟨closed, equation⟩, _, bodies, rfl⟩⟩

theorem isProgram_of_assembleAlong
    {assembler : Assembler} {program : Construct}
    (listed : units.ListedBy graph)
    (assembled : assembler.assembleAlong graph units = .ok program) :
    assembler.IsProgram units program := by
  rcases assembleAlong_eq_ok_iff.1 assembled with ⟨_, order, found, bodies, inOrder, rfl⟩
  rcases Graph.analyze_eq_ok_iff.1 found with ⟨closed, equation⟩
  have isOrder := Graph.isDependencyOrder_of_search closed equation
  rw [Units.bodiesInOrder_of_perm (isOrder.perm.trans listed.vertices)] at inOrder
  cases inOrder
  exact isProgram_root assembler listed isOrder

/-- Units can be put together exactly when their names fit, none of them is
reserved and their imports are resolved and not circular; the result is then
the program root around them. -/
theorem exists_assembleAlong_iff_and_isProgram
    (assembler : Assembler) (units : Units) (graph : Graph String)
    (listed : units.ListedBy graph) :
    ((∃ program, assembler.assembleAlong graph units = .ok program) ↔
        CanAssemble assembler.rootName units) ∧
      ∀ program, assembler.assembleAlong graph units = .ok program →
        assembler.IsProgram units program :=
  ⟨exists_assembleAlong_eq_ok_iff listed, fun _ => isProgram_of_assembleAlong listed⟩

/-- Two units, of which the first imports the second. -/
def importing : Units :=
  ⟨[("A", ⟨.ofList ["B"], .bare "A" .moduleKind⟩),
    ("B", ⟨.empty, .bare "B" .classKind⟩)], by decide⟩

/-- A graph that lists them the other way round. -/
def importingReversed : Graph String :=
  ⟨[("B", []), ("A", ["B"])], by decide⟩

theorem importing_assembles :
    importing.ListedBy importingReversed ∧ CanAssemble "P" importing ∧
      ∃ program,
        (Assembler.mk .moduleSurface "P").assembleAlong importingReversed importing =
          .ok program ∧
        (Assembler.mk .moduleSurface "P").IsProgram importing program := by
  have entries {name : String} {unit : CompilationUnit}
      (found : importing.get? name = some unit) :
      name = "A" ∧ unit = ⟨.ofList ["B"], .bare "A" .moduleKind⟩ ∨
        name = "B" ∧ unit = ⟨.empty, .bare "B" .classKind⟩ := by
    have isEntry := NameMap.get?_eq_some_iff.1 found
    simpa [importing] using isEntry
  have onlyImport {importer imported : String}
      (imports : importing.Imports importer imported) :
      importer = "A" ∧ imported = "B" := by
    rcases imports with ⟨unit, found, isImport⟩
    rcases entries found with ⟨rfl, rfl⟩ | ⟨rfl, rfl⟩
    · exact ⟨rfl, by simpa using isImport⟩
    · cases isImport
  have listed : importing.ListedBy importingReversed := by
    refine ⟨List.Perm.swap "A" "B" [], fun name unit found => ?_⟩
    rcases entries found with ⟨rfl, rfl⟩ | ⟨rfl, rfl⟩
    · exact ⟨["B"], rfl, .refl _⟩
    · exact ⟨[], rfl, .refl _⟩
  have can : CanAssemble "P" importing := by
    refine ⟨fun name unit found => ?_, by decide, fun importer imported imports => ?_, ?_⟩
    · rcases entries found with ⟨rfl, rfl⟩ | ⟨rfl, rfl⟩ <;> rfl
    · rw [(onlyImport imports).2]
      decide
    · rintro ⟨name, path⟩
      have ends : name = "B" := by
        cases path with
        | single imports => exact (onlyImport imports).2
        | tail _ imports => exact (onlyImport imports).2
      rcases Relation.TransGen.head'_iff.1 path with ⟨_, imports, _⟩
      rw [(onlyImport imports).1] at ends
      exact absurd ends (by decide)
  obtain ⟨succeeds, isProgram⟩ := exists_assembleAlong_iff_and_isProgram
    (Assembler.mk .moduleSurface "P") importing importingReversed listed
  rcases succeeds.2 can with ⟨program, assembled⟩
  exact ⟨listed, can, program, assembled, isProgram program assembled⟩

end Assembler

end TarnBuild
