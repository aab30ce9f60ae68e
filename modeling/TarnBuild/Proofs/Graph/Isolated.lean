import TarnBuild.Proofs.Graph.Order

/-!
# Vertices without edges

A search enters its roots, from which edges lead, and the successors of what it
has entered, to which edges lead.  So it never marks a vertex without edges, and
when it finds no cycle it has marked all others: those with a successor are
roots themselves, and those with a predecessor are done before it.  What an order
lists last, unmet by any walk, is therefore exactly what has no edges.
-/

namespace TarnBuild.Graph

variable {Vertex : Type} [DecidableEq Vertex]
  {graph : Graph Vertex} {walk : Walk Vertex} {vertex : Vertex}

/-- No edge leads from the vertex or to it. -/
def IsIsolated (graph : Graph Vertex) (vertex : Vertex) : Prop :=
  ∀ other, ¬ graph.DependsOn vertex other ∧ ¬ graph.DependsOn other vertex

theorem isIsolated_iff_forall_entry :
    graph.IsIsolated vertex ↔
      ∀ entry ∈ graph.adjacency, (entry.1 = vertex → entry.2 = []) ∧ vertex ∉ entry.2 := by
  simp only [IsIsolated, dependsOn_iff_exists_entry]
  constructor
  · intro isIsolated entry isEntry
    refine ⟨fun isOwn => List.eq_nil_iff_forall_not_mem.2 fun other isSuccessor => ?_,
      fun isSuccessor => ?_⟩
    · exact (isIsolated other).1 ⟨entry, isEntry, isOwn, isSuccessor⟩
    · exact (isIsolated entry.1).2 ⟨entry, isEntry, rfl, isSuccessor⟩
  · intro noEntry other
    constructor
    · rintro ⟨entry, isEntry, isOwn, isSuccessor⟩
      rw [(noEntry entry isEntry).1 isOwn] at isSuccessor
      cases isSuccessor
    · rintro ⟨entry, isEntry, _, isSuccessor⟩
      exact (noEntry entry isEntry).2 isSuccessor

instance (graph : Graph Vertex) (vertex : Vertex) : Decidable (graph.IsIsolated vertex) :=
  decidable_of_iff' _ isIsolated_iff_forall_entry

/-! ## Marks and edges -/

/-- Whatever has a mark is at one end of an edge. -/
theorem Arises.not_isIsolated
    (closed : graph.Closed)
    (arises : graph.Arises walk)
    (isMarked : (walk.mark? vertex).isSome) :
    ¬ graph.IsIsolated vertex := by
  induction arises with
  | start => simp [Walk.start, Walk.mark?] at isMarked
  | @root walk root _ isOver isRoot isUnmarked ih =>
      rw [Walk.mark?_enter] at isMarked
      split at isMarked
      · next same =>
          subst same
          rcases mem_roots.1 isRoot with ⟨target, edge⟩
          exact fun isIsolated => (isIsolated target).1 edge
      · exact ih isMarked
  | @turn walk after arises equation ih =>
      have coherent := arises.coherent closed
      cases Walk.step_of_turn equation with
      | @leave top below stack =>
          rw [Walk.mark?_leave] at isMarked
          split at isMarked
          · next same =>
              subst same
              have isOnPath : vertex ∈ walk.path := by simp [coherent.path_eq, stack]
              exact ih (by rw [(coherent.inProgress_iff vertex).2 isOnPath]; rfl)
          · exact ih isMarked
      | pass stack isDone => exact ih isMarked
      | @enter top successor rest below stack isUnmarked =>
          rw [Walk.mark?_enter] at isMarked
          split at isMarked
          · next same =>
              subst same
              exact fun isIsolated => (isIsolated top).2 (coherent.dependsOn_of_stack stack)
          · exact ih isMarked

/-- When the walks from all roots are over, the vertices without a mark are those
without edges. -/
theorem Arises.mark?_eq_none_iff
    (closed : graph.Closed)
    (arises : graph.Arises walk)
    (isOver : walk.stack = [])
    (rootsMarked : ∀ root ∈ graph.roots, (walk.mark? root).isSome) :
    walk.mark? vertex = none ↔ graph.IsIsolated vertex := by
  have coherent := arises.coherent closed
  constructor
  · intro isUnmarked other
    constructor
    · intro edge
      have isMarked := rootsMarked vertex (mem_roots.2 ⟨other, edge⟩)
      rw [isUnmarked] at isMarked
      cases isMarked
    · intro edge
      have isFinished : other ∈ walk.finished :=
        coherent.mem_finished isOver (rootsMarked other (mem_roots.2 ⟨vertex, edge⟩))
      have stands := coherent.finished_closed other isFinished vertex edge
      have isDone := (coherent.done_iff vertex).2 (stands.subset (by simp))
      rw [isUnmarked] at isDone
      cases isDone
  · intro isIsolated
    rw [← Option.not_isSome_iff_eq_none]
    exact fun isMarked => arises.not_isIsolated closed isMarked isIsolated

/-! ## The end of an order -/

/-- An order of a graph without dangling edges ends with the vertices that have
no edges, in the order of the graph, and has all others before them. -/
theorem exists_order_eq_append_isolated
    {order : List Vertex}
    (closed : graph.Closed)
    (found : graph.analyze = .ok (.acyclic order)) :
    ∃ met, order = met ++ graph.vertices.filter (fun vertex => graph.IsIsolated vertex) ∧
      met.Perm (graph.vertices.filter fun vertex => ¬ graph.IsIsolated vertex) := by
  rcases search_eq_acyclic (analyze_eq_ok_iff.1 found).2 with
    ⟨walk, arises, isOver, rootsMarked, rfl⟩
  have coherent := arises.coherent closed
  refine ⟨walk.finished.reverse, ?_, ?_⟩
  · congr 1
    refine List.filter_congr fun vertex _ => ?_
    rw [Bool.eq_iff_iff, decide_eq_true_eq, Option.isNone_iff_eq_none]
    exact arises.mark?_eq_none_iff closed isOver rootsMarked
  · refine (List.perm_ext_iff_of_nodup (List.nodup_reverse.2 coherent.finished_nodup)
      (graph.nodup_vertices.filter _)).2 fun vertex => ?_
    rw [List.mem_reverse, List.mem_filter, decide_eq_true_eq,
      ← arises.mark?_eq_none_iff closed isOver rootsMarked]
    constructor
    · intro isFinished
      refine ⟨coherent.finished_vertices vertex isFinished, ?_⟩
      rw [(coherent.done_iff vertex).2 isFinished]
      nofun
    · rintro ⟨_, isMarked⟩
      exact coherent.mem_finished isOver (Option.isSome_iff_ne_none.2 isMarked)

/-- Three vertices without edges among two with one. -/
def scattered : Graph Nat :=
  ⟨[(7, []), (1, [2]), (5, []), (2, []), (0, [])], by decide⟩

/-- The vertex without successors that another one depends on comes first. -/
theorem scattered_order_ends_isolated :
    scattered.Closed ∧ scattered.analyze = .ok (.acyclic [2, 1, 7, 5, 0]) ∧
      ∃ met, [2, 1, 7, 5, 0] =
          met ++ scattered.vertices.filter (fun vertex => scattered.IsIsolated vertex) ∧
        met.Perm (scattered.vertices.filter fun vertex => ¬ scattered.IsIsolated vertex) := by
  have closed : scattered.Closed := danglingEdge?_eq_none_iff.1 (by decide)
  have run : (Walk.start.enter 1 [2]).run scattered =
      .ok ⟨[(1, .done), (2, .done), (2, .inProgress), (1, .inProgress)], [], [1, 2], []⟩ :=
    (Walk.run_of_next rfl).trans <| (Walk.run_of_next rfl).trans <|
      (Walk.run_of_next rfl).trans <| Walk.run_of_over rfl
  have visits : scattered.roots.foldlM (Walk.visit scattered) Walk.start = .ok _ :=
    (bind_pure (Walk.start.visit scattered 1)).trans run
  have found : scattered.analyze = .ok (.acyclic [2, 1, 7, 5, 0]) := by
    refine analyze_eq_ok_iff.2 ⟨closed, ?_⟩
    rw [search, visits]
    rfl
  exact ⟨closed, found, exists_order_eq_append_isolated closed found⟩

end TarnBuild.Graph
