import TarnBuild.Proofs.Graph.Cycle

/-!
# Orders and cycles of a graph

When a search finds no cycle, its order lists every vertex once and after all
its successors.  A graph with such an order has no cycle, and a graph in which
a simple cycle is found has one, so the analysis of a graph without dangling
edges answers with an order exactly when the graph has no cycle.
-/

namespace TarnBuild

variable {Vertex : Type} [DecidableEq Vertex]

/-! ## Vertices that no walk has met -/

namespace Walk

theorem mark?_finishIsolated_of_ne
    (walk : Walk Vertex) {vertex other : Vertex}
    (different : other ≠ vertex) :
    (walk.finishIsolated vertex).mark? other = walk.mark? other := by
  unfold finishIsolated
  split
  · rfl
  · simp [mark?, List.lookup_cons, beq_eq_false_iff_ne.2 different]

/-- Of some vertices, those without a mark are put in front of the finished
ones, the last of them first. -/
theorem finished_foldl_finishIsolated
    {vertices : List Vertex}
    (distinct : vertices.Nodup)
    (walk : Walk Vertex) :
    (vertices.foldl finishIsolated walk).finished =
      (vertices.filter fun vertex => (walk.mark? vertex).isNone).reverse ++
        walk.finished := by
  induction vertices generalizing walk with
  | nil => rfl
  | cons vertex others ih =>
      rcases List.nodup_cons.1 distinct with ⟨notOther, othersDistinct⟩
      have sameFilter :
          (others.filter fun other => ((walk.finishIsolated vertex).mark? other).isNone) =
            others.filter fun other => (walk.mark? other).isNone := by
        apply List.filter_congr
        intro other isOther
        rw [mark?_finishIsolated_of_ne]
        rintro rfl
        exact notOther isOther
      rw [List.foldl_cons, ih othersDistinct, sameFilter]
      cases isMarked : walk.mark? vertex with
      | some mark => simp [finishIsolated, isMarked]
      | none => simp [finishIsolated, isMarked]

end Walk

/-! ## The order that a search finds -/

namespace Graph

/-- Every vertex is listed once, and after all its successors. -/
structure IsDependencyOrder (graph : Graph Vertex) (order : List Vertex) : Prop where
  perm : order.Perm graph.vertices
  after : ∀ vertex target, graph.DependsOn vertex target →
    StandsBefore order target vertex

/-- A search that finds no cycle finishes what it met and then lists the
vertices that it has not met. -/
theorem search_eq_acyclic
    {graph : Graph Vertex} {order : List Vertex}
    (equation : graph.search = .acyclic order) :
    ∃ walk, graph.Arises walk ∧ walk.stack = [] ∧
      (∀ root ∈ graph.roots, (walk.mark? root).isSome) ∧
      order = walk.finished.reverse ++
        graph.vertices.filter fun vertex => (walk.mark? vertex).isNone := by
  rcases graph.search_cases with ⟨walk, arises, isOver, rootsMarked, same⟩ |
    ⟨_, _, _, _, other⟩
  · refine ⟨walk, arises, isOver, rootsMarked, ?_⟩
    rw [same, Walk.finished_foldl_finishIsolated graph.nodup_vertices] at equation
    cases equation
    simp
  · rw [other] at equation
    cases equation

/-- In a graph without dangling edges a search finds only dependency orders. -/
theorem isDependencyOrder_of_search
    {graph : Graph Vertex} {order : List Vertex}
    (closed : graph.Closed)
    (equation : graph.search = .acyclic order) :
    graph.IsDependencyOrder order := by
  rcases search_eq_acyclic equation with ⟨walk, arises, isOver, rootsMarked, rfl⟩
  have coherent := arises.coherent closed
  have unmet (vertex : Vertex) :
      vertex ∈ graph.vertices.filter (fun vertex => (walk.mark? vertex).isNone) ↔
        vertex ∈ graph.vertices ∧ walk.mark? vertex = none := by
    simp
  constructor
  · -- Both lists repeat nothing, so it is enough to compare their members.
    have distinct : (walk.finished.reverse ++
        graph.vertices.filter fun vertex => (walk.mark? vertex).isNone).Nodup := by
      refine List.nodup_append.2
        ⟨List.nodup_reverse.2 coherent.finished_nodup, graph.nodup_vertices.filter _, ?_⟩
      rintro finished isFinished other isUnmet rfl
      have isDone := (coherent.done_iff finished).2 (List.mem_reverse.1 isFinished)
      rw [((unmet finished).1 isUnmet).2] at isDone
      cases isDone
    refine (List.perm_ext_iff_of_nodup distinct graph.nodup_vertices).2 fun vertex => ?_
    rw [List.mem_append, List.mem_reverse, unmet]
    constructor
    · rintro (isFinished | ⟨isVertex, _⟩)
      · exact coherent.finished_vertices vertex isFinished
      · exact isVertex
    · intro isVertex
      cases isMarked : walk.mark? vertex with
      | some mark => exact .inl (coherent.mem_finished isOver (by simp [isMarked]))
      | none => exact .inr ⟨isVertex, rfl⟩
  · intro vertex target edge
    have isFinished : vertex ∈ walk.finished :=
      coherent.mem_finished isOver (rootsMarked vertex (mem_roots.2 ⟨target, edge⟩))
    have stands := coherent.finished_closed vertex isFinished target edge
    exact stands.reverse.trans (List.sublist_append_left _ _)

/-- A graph with a dependency order has no cycle: indices decrease along
edges. -/
theorem IsDependencyOrder.not_hasCycle
    {graph : Graph Vertex} {order : List Vertex}
    (isOrder : graph.IsDependencyOrder order) :
    ¬ graph.HasCycle := by
  rintro ⟨vertex, reaches⟩
  have distinct : order.Nodup := isOrder.perm.nodup_iff.2 graph.nodup_vertices
  have decreases {source target : Vertex}
      (path : Relation.TransGen graph.DependsOn source target) :
      order.idxOf target < order.idxOf source := by
    induction path with
    | single edge => exact (isOrder.after _ _ edge).idxOf_lt distinct
    | tail _ edge ih => exact ((isOrder.after _ _ edge).idxOf_lt distinct).trans ih
  exact Nat.lt_irrefl _ (decreases reaches)

/-! ## The analysis of a graph without dangling edges -/

/-- No edge dangles exactly when no dangling edge is found. -/
theorem danglingEdge?_eq_none_iff {graph : Graph Vertex} :
    graph.danglingEdge? = none ↔ graph.Closed := by
  simp only [danglingEdge?, List.findSome?_eq_none_iff, Option.map_eq_none_iff,
    List.find?_eq_none, decide_eq_true_eq, not_not]
  constructor
  · rintro allListed vertex target ⟨successors, listed, isTarget⟩
    exact allListed _ (successors?_eq_some_iff.1 listed) target isTarget
  · intro closed entry isEntry target isTarget
    exact closed entry.1 target ⟨entry.2, successors?_eq_some_iff.2 isEntry, isTarget⟩

/-- The analysis is that of the search, where every successor is a vertex. -/
theorem analyze_eq_ok_iff {graph : Graph Vertex} {analysis : Analysis Vertex} :
    graph.analyze = .ok analysis ↔ graph.Closed ∧ graph.search = analysis := by
  rw [← danglingEdge?_eq_none_iff, analyze]
  cases graph.danglingEdge? <;> simp

theorem exists_search_eq_acyclic
    {graph : Graph Vertex}
    (closed : graph.Closed)
    (noCycle : ¬ graph.HasCycle) :
    ∃ order, graph.search = .acyclic order := by
  cases equation : graph.search with
  | acyclic order => exact ⟨order, rfl⟩
  | cyclic cycle =>
      exact (noCycle (isSimpleCycle_of_search closed equation).hasCycle).elim

theorem exists_search_eq_cyclic
    {graph : Graph Vertex}
    (closed : graph.Closed)
    (hasCycle : graph.HasCycle) :
    ∃ cycle, graph.search = .cyclic cycle := by
  cases equation : graph.search with
  | cyclic cycle => exact ⟨cycle, rfl⟩
  | acyclic order =>
      exact ((isDependencyOrder_of_search closed equation).not_hasCycle hasCycle).elim

/-- An order that the analysis finds lists every vertex once and after all its
successors, and it finds one whenever the graph has no cycle. -/
theorem isDependencyOrder_of_analyze_and_exists_order
    (graph : Graph Vertex)
    (closed : graph.Closed) :
    (∀ order, graph.analyze = .ok (.acyclic order) → graph.IsDependencyOrder order) ∧
      (¬ graph.HasCycle → ∃ order, graph.analyze = .ok (.acyclic order)) := by
  constructor
  · intro order found
    exact isDependencyOrder_of_search closed (analyze_eq_ok_iff.1 found).2
  · intro noCycle
    rcases exists_search_eq_acyclic closed noCycle with ⟨order, equation⟩
    exact ⟨order, analyze_eq_ok_iff.2 ⟨closed, equation⟩⟩

/-- A vertex that two others share, one of them through a repeated edge, and a
vertex without any edge. -/
def sharing : Graph Nat :=
  ⟨[(1, [2, 3]), (5, []), (2, [4, 4]), (3, [4]), (4, [])], by decide⟩

/-- Edges of `sharing` lead to larger numbers, so it has an order. -/
theorem sharing_has_order :
    sharing.Closed ∧ ¬ sharing.HasCycle ∧
      ∃ order, sharing.analyze = .ok (.acyclic order) ∧
        sharing.IsDependencyOrder order := by
  have closed : sharing.Closed := danglingEdge?_eq_none_iff.1 (by decide)
  rcases isDependencyOrder_of_analyze_and_exists_order sharing closed with ⟨sound, complete⟩
  have increases : ∀ entry ∈ sharing.adjacency, ∀ target ∈ entry.2, entry.1 < target := by
    decide
  have larger {source target : Nat}
      (path : Relation.TransGen sharing.DependsOn source target) :
      source < target := by
    induction path with
    | single edge =>
        rcases edge with ⟨successors, listed, isTarget⟩
        exact increases _ (successors?_eq_some_iff.1 listed) _ isTarget
    | tail _ edge ih =>
        rcases edge with ⟨successors, listed, isTarget⟩
        exact ih.trans (increases _ (successors?_eq_some_iff.1 listed) _ isTarget)
  have noCycle : ¬ sharing.HasCycle := by
    rintro ⟨vertex, path⟩
    exact Nat.lt_irrefl _ (larger path)
  rcases complete noCycle with ⟨order, equation⟩
  exact ⟨closed, noCycle, order, equation, sound order equation⟩

/-- A cycle that the analysis finds is a closed path along edges without any
other repetition, and it finds one whenever the graph has a cycle. -/
theorem isSimpleCycle_of_analyze_and_exists_cycle
    (graph : Graph Vertex)
    (closed : graph.Closed) :
    (∀ cycle, graph.analyze = .ok (.cyclic cycle) → graph.IsSimpleCycle cycle) ∧
      (graph.HasCycle → ∃ cycle, graph.analyze = .ok (.cyclic cycle)) := by
  constructor
  · intro cycle found
    exact isSimpleCycle_of_search closed (analyze_eq_ok_iff.1 found).2
  · intro hasCycle
    rcases exists_search_eq_cyclic closed hasCycle with ⟨cycle, equation⟩
    exact ⟨cycle, analyze_eq_ok_iff.2 ⟨closed, equation⟩⟩

/-- A path that leads into a cycle of two vertices. -/
def leadingIn : Graph Nat :=
  ⟨[(1, [2]), (2, [4, 3]), (3, [2]), (4, [])], by decide⟩

theorem leadingIn_has_cycle :
    leadingIn.Closed ∧ leadingIn.HasCycle ∧
      ∃ cycle, leadingIn.analyze = .ok (.cyclic cycle) ∧ leadingIn.IsSimpleCycle cycle := by
  have closed : leadingIn.Closed := danglingEdge?_eq_none_iff.1 (by decide)
  have there : leadingIn.DependsOn 2 3 := ⟨[4, 3], rfl, by decide⟩
  have back : leadingIn.DependsOn 3 2 := ⟨[2], rfl, by decide⟩
  have hasCycle : leadingIn.HasCycle := ⟨2, .tail (.single there) back⟩
  rcases isSimpleCycle_of_analyze_and_exists_cycle leadingIn closed with ⟨sound, complete⟩
  rcases complete hasCycle with ⟨cycle, equation⟩
  exact ⟨closed, hasCycle, cycle, equation, sound cycle equation⟩

end Graph

end TarnBuild
