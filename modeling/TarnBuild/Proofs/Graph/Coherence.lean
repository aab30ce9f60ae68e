import Mathlib.Data.List.Chain
import TarnBuild.Proofs.Graph.States
import TarnBuild.Proofs.Listing

/-!
# Coherence of a walk

The marks, the path, the finished vertices and the stack of a walk tell one
story: what is in progress is exactly what lies on the stack, along edges of
the graph, and what is done is exactly what is finished, after all its
successors.  In a graph without dangling edges every state that arises in a
search is coherent.

Between consuming a successor and entering it a vertex waits above the stack.
Coherence is therefore stated below an optional vertex, and a turn that enters
a vertex is split there into two steps.
-/

namespace TarnBuild

variable {Vertex : Type} [DecidableEq Vertex]

/-! ## Edges, vertices and roots -/

namespace Graph

theorem successors?_eq_some_iff
    {graph : Graph Vertex} {vertex : Vertex} {successors : List Vertex} :
    graph.successors? vertex = some successors ↔
      (vertex, successors) ∈ graph.adjacency :=
  lookup_eq_some_iff_mem graph.distinct

omit [DecidableEq Vertex] in
theorem nodup_vertices (graph : Graph Vertex) : graph.vertices.Nodup :=
  graph.distinct

theorem exists_successors?
    {graph : Graph Vertex} {vertex : Vertex}
    (isVertex : vertex ∈ graph.vertices) :
    ∃ successors, graph.successors? vertex = some successors := by
  rcases List.mem_map.1 isVertex with ⟨⟨_, successors⟩, isEntry, rfl⟩
  exact ⟨successors, successors?_eq_some_iff.2 isEntry⟩

theorem dependsOn_iff
    {graph : Graph Vertex} {vertex target : Vertex} {successors : List Vertex}
    (listed : graph.successors? vertex = some successors) :
    graph.DependsOn vertex target ↔ target ∈ successors := by
  simp [DependsOn, listed]

theorem dependsOn_iff_exists_entry
    {graph : Graph Vertex} {source target : Vertex} :
    graph.DependsOn source target ↔
      ∃ entry ∈ graph.adjacency, entry.1 = source ∧ target ∈ entry.2 := by
  simp [DependsOn, successors?_eq_some_iff]

/-- The roots are the vertices from which an edge leads. -/
theorem mem_roots
    {graph : Graph Vertex} {vertex : Vertex} :
    vertex ∈ graph.roots ↔ ∃ target, graph.DependsOn vertex target := by
  constructor
  · intro isRoot
    rcases List.mem_map.1 isRoot with ⟨⟨_, successors⟩, isFiltered, rfl⟩
    rcases List.mem_filter.1 isFiltered with ⟨isEntry, nonempty⟩
    rcases List.exists_mem_of_ne_nil successors (by simpa using nonempty) with
      ⟨target, isTarget⟩
    exact ⟨target, successors, successors?_eq_some_iff.2 isEntry, isTarget⟩
  · rintro ⟨target, successors, listed, isTarget⟩
    refine List.mem_map.2 ⟨(vertex, successors), List.mem_filter.2 ⟨?_, ?_⟩, rfl⟩
    · exact successors?_eq_some_iff.1 listed
    · simpa using List.ne_nil_of_mem isTarget

end Graph

/-! ## The invariant -/

namespace Walk

/-- Every consumed successor of a vertex on a stack is done, or is the vertex
just above it. -/
def Consumed (graph : Graph Vertex) (walk : Walk Vertex) :
    Option Vertex → List (Vertex × List Vertex) → Prop
  | _, [] => True
  | above, (vertex, remaining) :: below =>
      (∃ consumed, graph.successors? vertex = some (consumed ++ remaining) ∧
        ∀ successor ∈ consumed,
          walk.mark? successor = some .done ∨ above = some successor) ∧
      Consumed graph walk (some vertex) below

/-- A walk is coherent below a vertex that waits above its stack, if there is
one. -/
structure CoherentBelow (graph : Graph Vertex) (above : Option Vertex)
    (walk : Walk Vertex) : Prop where
  path_eq : walk.path = walk.stack.map Prod.fst
  path_nodup : walk.path.Nodup
  inProgress_iff : ∀ vertex, walk.mark? vertex = some .inProgress ↔ vertex ∈ walk.path
  done_iff : ∀ vertex, walk.mark? vertex = some .done ↔ vertex ∈ walk.finished
  finished_nodup : walk.finished.Nodup
  finished_vertices : ∀ vertex ∈ walk.finished, vertex ∈ graph.vertices
  /-- The path is listed with the latest vertex first. -/
  path_edges : (above.toList ++ walk.path).IsChain fun later earlier =>
    graph.DependsOn earlier later
  /-- The finished vertices are listed with the latest first. -/
  finished_closed : ∀ vertex ∈ walk.finished, ∀ target,
    graph.DependsOn vertex target → StandsBefore walk.finished vertex target
  consumed : Consumed graph walk above walk.stack

/-- A walk is coherent when no vertex waits above its stack. -/
abbrev Coherent (graph : Graph Vertex) (walk : Walk Vertex) : Prop :=
  CoherentBelow graph none walk

variable {graph : Graph Vertex} {walk : Walk Vertex}

/-- More vertices may become done, and the vertex above the stack may change
once it is done. -/
theorem Consumed.change
    {after : Walk Vertex} {above newAbove : Option Vertex}
    {stack : List (Vertex × List Vertex)}
    (consumed : Consumed graph walk above stack)
    (keepsDone : ∀ vertex, walk.mark? vertex = some .done →
      after.mark? vertex = some .done)
    (settles : ∀ vertex, above = some vertex →
      after.mark? vertex = some .done ∨ newAbove = some vertex) :
    Consumed graph after newAbove stack := by
  induction stack generalizing above newAbove with
  | nil => trivial
  | cons entry below ih =>
      rcases consumed with ⟨⟨front, listed, isSettled⟩, belowConsumed⟩
      refine ⟨⟨front, listed, fun successor isConsumed => ?_⟩,
        ih belowConsumed fun vertex => .inr⟩
      rcases isSettled successor isConsumed with isDone | isAbove
      · exact .inl (keepsDone successor isDone)
      · exact settles successor isAbove

/-- The walk without marks is coherent. -/
theorem coherent_start : Coherent graph start where
  path_eq := rfl
  path_nodup := .nil
  inProgress_iff := by simp [start, mark?]
  done_iff := by simp [start, mark?]
  finished_nodup := .nil
  finished_vertices := by simp [start]
  path_edges := .nil
  finished_closed := by simp [start]
  consumed := trivial

/-! ## Steps -/

/-- The top vertex of the stack is the last one of the path. -/
theorem CoherentBelow.path_of_stack
    {above : Option Vertex} {vertex : Vertex} {remaining : List Vertex}
    {below : List (Vertex × List Vertex)}
    (coherent : CoherentBelow graph above walk)
    (stack : walk.stack = (vertex, remaining) :: below) :
    walk.path = vertex :: below.map Prod.fst := by
  rw [coherent.path_eq, stack, List.map_cons]

/-- The next successor of the top vertex is at the end of an edge. -/
theorem CoherentBelow.dependsOn_of_stack
    {vertex successor : Vertex} {rest : List Vertex}
    {below : List (Vertex × List Vertex)}
    (coherent : Coherent graph walk)
    (stack : walk.stack = (vertex, successor :: rest) :: below) :
    graph.DependsOn vertex successor := by
  have consumed := coherent.consumed
  rw [stack] at consumed
  rcases consumed with ⟨⟨front, listed, _⟩, _⟩
  exact (Graph.dependsOn_iff listed).2 (List.mem_append_right front List.mem_cons_self)

/-- The next successor of the top vertex is consumed and waits above the stack. -/
theorem CoherentBelow.await
    {vertex successor : Vertex} {rest : List Vertex}
    {below : List (Vertex × List Vertex)}
    (coherent : Coherent graph walk)
    (stack : walk.stack = (vertex, successor :: rest) :: below) :
    CoherentBelow graph (some successor)
      { walk with stack := (vertex, rest) :: below } := by
  have consumed := coherent.consumed
  rw [stack] at consumed
  rcases consumed with ⟨⟨front, listed, isSettled⟩, belowConsumed⟩
  have path := coherent.path_of_stack stack
  refine { coherent with path_eq := path, path_edges := ?_, consumed := ?_ }
  · have chain : walk.path.IsChain fun later earlier =>
        graph.DependsOn earlier later := coherent.path_edges
    rw [path] at chain
    show (successor :: walk.path).IsChain _
    rw [path]
    exact .cons_cons (coherent.dependsOn_of_stack stack) chain
  · refine ⟨⟨front ++ [successor], by simpa using listed, fun other isConsumed => ?_⟩,
      belowConsumed.change (fun _ => id) fun _ => .inr⟩
    rcases List.mem_append.1 isConsumed with isFront | isLast
    · exact (isSettled other isFront).imp_right fun isAbove => by cases isAbove
    · exact .inr (congrArg some (List.mem_singleton.1 isLast).symm)

/-- A root waits above the empty stack. -/
theorem CoherentBelow.awaitRoot
    (coherent : Coherent graph walk)
    (isOver : walk.stack = [])
    (root : Vertex) :
    CoherentBelow graph (some root) walk := by
  have path : walk.path = [] := by simp [coherent.path_eq, isOver]
  refine { coherent with path_edges := ?_, consumed := ?_ }
  · rw [path]
    exact .singleton root
  · rw [isOver]
    trivial

/-- The vertex above the stack need not wait when it is done. -/
theorem CoherentBelow.pass
    {successor : Vertex}
    (coherent : CoherentBelow graph (some successor) walk)
    (isDone : walk.mark? successor = some .done) :
    Coherent graph walk := by
  refine { coherent with path_edges := ?_, consumed := ?_ }
  · exact coherent.path_edges.of_cons
  · refine coherent.consumed.change (fun _ => id) fun vertex isAbove => .inl ?_
    cases isAbove
    exact isDone

/-- The vertex above the stack is entered when it has no mark. -/
theorem CoherentBelow.enter
    {successor : Vertex} {successors : List Vertex}
    (coherent : CoherentBelow graph (some successor) walk)
    (isUnmarked : walk.mark? successor = none)
    (listed : graph.successors? successor = some successors) :
    Coherent graph (walk.enter successor successors) where
  path_eq := congrArg (successor :: ·) coherent.path_eq
  path_nodup := by
    refine List.nodup_cons.2 ⟨fun isOnPath => ?_, coherent.path_nodup⟩
    rw [← coherent.inProgress_iff, isUnmarked] at isOnPath
    cases isOnPath
  inProgress_iff vertex := by
    rw [mark?_enter, Walk.enter, List.mem_cons, ← coherent.inProgress_iff]
    split <;> simp [*]
  done_iff vertex := by
    have notDone : successor ∉ walk.finished := by
      rw [← coherent.done_iff, isUnmarked]
      rintro ⟨⟩
    rw [mark?_enter, Walk.enter, ← coherent.done_iff]
    split
    · next same =>
        subst same
        simp [isUnmarked]
    · rfl
  finished_nodup := coherent.finished_nodup
  finished_vertices := coherent.finished_vertices
  path_edges := coherent.path_edges
  finished_closed := coherent.finished_closed
  consumed := by
    refine ⟨⟨[], listed, by simp⟩,
      coherent.consumed.change (fun vertex isDone => ?_) fun _ => .inr⟩
    rw [mark?_enter]
    split
    · next same =>
        subst same
        rw [isUnmarked] at isDone
        cases isDone
    · exact isDone

/-- A vertex is put among the finished ones when it is not among them and all
its successors are. -/
theorem CoherentBelow.closed_cons
    {above : Option Vertex} {vertex : Vertex}
    (coherent : CoherentBelow graph above walk)
    (successorsFinished : ∀ target, graph.DependsOn vertex target →
      target ∈ walk.finished) :
    ∀ finished ∈ vertex :: walk.finished, ∀ target,
      graph.DependsOn finished target →
        StandsBefore (vertex :: walk.finished) finished target := by
  intro finished isFinished target edge
  rcases List.mem_cons.1 isFinished with rfl | wasFinished
  · exact standsBefore_head (successorsFinished target edge) finished
  · exact (coherent.finished_closed finished wasFinished target edge).cons vertex

/-- The top vertex is left when it has no further successor. -/
theorem CoherentBelow.leave
    {vertex : Vertex} {below : List (Vertex × List Vertex)}
    (coherent : Coherent graph walk)
    (stack : walk.stack = (vertex, []) :: below) :
    Coherent graph (walk.leave vertex below) := by
  have consumed := coherent.consumed
  rw [stack] at consumed
  rcases consumed with ⟨⟨front, listed, isSettled⟩, belowConsumed⟩
  have path := coherent.path_of_stack stack
  have isInProgress : walk.mark? vertex = some .inProgress := by
    rw [coherent.inProgress_iff, path]
    exact List.mem_cons_self
  have notFinished : vertex ∉ walk.finished := by
    rw [← coherent.done_iff, isInProgress]
    exact nofun
  have distinct := coherent.path_nodup
  have chain : walk.path.IsChain fun later earlier =>
      graph.DependsOn earlier later := coherent.path_edges
  rw [path] at distinct chain
  refine
    { path_eq := by simp [Walk.leave, path]
      path_nodup := by simpa [Walk.leave, path] using distinct.of_cons
      inProgress_iff := fun other => ?_
      done_iff := fun other => ?_
      finished_nodup := List.nodup_cons.2 ⟨notFinished, coherent.finished_nodup⟩
      finished_vertices := fun other isFinished => ?_
      path_edges := by simpa [Walk.leave, path] using chain.of_cons
      finished_closed := coherent.closed_cons fun target edge => ?_
      consumed := belowConsumed.change (fun other isDone => ?_) fun other isAbove => ?_ }
  · have others := coherent.inProgress_iff other
    rw [path, List.mem_cons] at others
    rw [mark?_leave]
    split
    · next same =>
        subst same
        simpa [Walk.leave, path] using (List.nodup_cons.1 distinct).1
    · next different => simpa [Walk.leave, path, different] using others
  · rw [mark?_leave, Walk.leave, List.mem_cons, ← coherent.done_iff]
    split <;> simp [*]
  · rcases List.mem_cons.1 isFinished with rfl | wasFinished
    · exact Graph.mem_vertices_of_successors? listed
    · exact coherent.finished_vertices other wasFinished
  · -- Nothing waits above the stack, so all consumed successors are done.
    rw [Graph.dependsOn_iff listed, List.append_nil] at edge
    rcases isSettled target edge with isDone | isAbove
    · exact (coherent.done_iff target).1 isDone
    · cases isAbove
  · rw [mark?_leave]
    split
    · rfl
    · exact isDone
  · cases isAbove
    exact .inl (by simp [mark?_leave])

/-- Every turn in a graph without dangling edges keeps a walk coherent. -/
theorem CoherentBelow.step
    {after : Walk Vertex}
    (closed : graph.Closed)
    (coherent : Coherent graph walk)
    (step : walk.Step graph after) :
    Coherent graph after := by
  cases step with
  | leave stack => exact coherent.leave stack
  | pass stack isDone => exact (coherent.await stack).pass isDone
  | enter stack isUnmarked =>
      obtain ⟨successors, listed⟩ := Graph.exists_successors? <|
        closed _ _ (coherent.dependsOn_of_stack stack)
      rw [listed]
      exact (coherent.await stack).enter isUnmarked listed

/-- When the stack of a coherent walk is empty, every vertex with a mark is
finished. -/
theorem CoherentBelow.mem_finished
    {vertex : Vertex}
    (coherent : Coherent graph walk)
    (isOver : walk.stack = [])
    (isMarked : (walk.mark? vertex).isSome) :
    vertex ∈ walk.finished := by
  rcases Option.isSome_iff_exists.1 isMarked with ⟨mark, marked⟩
  cases mark with
  | done => exact (coherent.done_iff vertex).1 marked
  | inProgress =>
      have isOnPath := (coherent.inProgress_iff vertex).1 marked
      rw [coherent.path_eq, isOver] at isOnPath
      cases isOnPath

end Walk

namespace Graph

/-- In a graph without dangling edges every state of a search is coherent. -/
theorem Arises.coherent
    {graph : Graph Vertex} {walk : Walk Vertex}
    (closed : graph.Closed)
    (arises : graph.Arises walk) :
    walk.Coherent graph := by
  induction arises with
  | start => exact Walk.coherent_start
  | @root walk root _ isOver isRoot isUnmarked coherent =>
      rcases mem_roots.1 isRoot with ⟨_, successors, listed, _⟩
      rw [listed]
      exact (coherent.awaitRoot isOver root).enter isUnmarked listed
  | turn _ equation coherent => exact coherent.step closed (Walk.step_of_turn equation)

end Graph

end TarnBuild
