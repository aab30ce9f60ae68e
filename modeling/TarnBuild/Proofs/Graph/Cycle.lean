import Mathlib.Logic.Relation
import TarnBuild.Proofs.Graph.Coherence

/-!
# Cycles that a walk finds

A walk reports a cycle when the next successor of its top vertex is in
progress.  Coherence puts that successor on the path, so the part of the path
from it on, closed by it, runs along edges and repeats nothing but its ends.
-/

namespace TarnBuild

variable {Vertex : Type} [DecidableEq Vertex]

namespace Graph

/-- Some vertex depends on itself, directly or through others. -/
def HasCycle (graph : Graph Vertex) : Prop :=
  ∃ vertex, Relation.TransGen graph.DependsOn vertex vertex

/-- A closed path along edges that repeats nothing but its ends. -/
structure IsSimpleCycle (graph : Graph Vertex) (cycle : List Vertex) : Prop where
  two_le_length : 2 ≤ cycle.length
  closed : cycle.head? = cycle.getLast?
  edges : cycle.IsChain graph.DependsOn
  distinct : cycle.dropLast.Nodup

/-- A closed path along edges witnesses that a vertex depends on itself. -/
theorem IsSimpleCycle.hasCycle
    {graph : Graph Vertex} {cycle : List Vertex}
    (isCycle : graph.IsSimpleCycle cycle) :
    graph.HasCycle := by
  rcases isCycle with ⟨long, closed, edges, _⟩
  cases cycle with
  | nil => simp at long
  | cons first rest =>
      have nonempty : rest ≠ [] := by
        rintro rfl
        simp at long
      have returns : first ∈ rest := by
        rw [List.head?_cons, List.getLast?_cons_of_ne_nil nonempty] at closed
        exact List.mem_of_getLast? closed.symm
      have reaches : (first :: rest).Pairwise (Relation.TransGen graph.DependsOn) :=
        (edges.imp fun _ _ => Relation.TransGen.single).pairwise
      exact ⟨first, (List.pairwise_cons.1 reaches).1 first returns⟩

end Graph

namespace Walk

/-- The cycle through a vertex starts at the first place of the vertex on the path. -/
theorem cycleThrough_eq_drop
    {walk : Walk Vertex} {vertex : Vertex} {start : Nat}
    (found : walk.path.reverse.idxOf? vertex = some start) :
    walk.cycleThrough vertex = walk.path.reverse.drop start ++ [vertex] := by
  rw [cycleThrough, found, Option.getD_some]

/-- The cycle through a vertex of the path leaves out what stands before the vertex. -/
theorem cycleThrough_eq_dropWhile
    {walk : Walk Vertex} {vertex : Vertex}
    (isOnPath : vertex ∈ walk.path) :
    walk.cycleThrough vertex = walk.path.reverse.dropWhile (· ≠ vertex) ++ [vertex] := by
  have isFound : (walk.path.reverse.idxOf? vertex).isSome :=
    List.isSome_idxOf?.2 (List.mem_reverse.2 isOnPath)
  rcases Option.isSome_iff_exists.1 isFound with ⟨start, found⟩
  have isFirst : walk.path.reverse.findIdx (fun other => !decide (other ≠ vertex)) = start := by
    have same := List.idxOf_eq_getD_idxOf? vertex walk.path.reverse
    rw [found, Option.getD_some] at same
    rw [← same, List.idxOf]
    congr 1
    funext other
    simp [Bool.beq_eq_decide_eq]
  rw [cycleThrough_eq_drop found, List.dropWhile_eq_drop_findIdx_not, isFirst]

/-- On a path without repetition the cycle through a vertex starts with it and
goes on with what was entered later. -/
theorem cycleThrough_eq
    {walk : Walk Vertex} {vertex : Vertex} {later earlier : List Vertex}
    (path : walk.path = later ++ vertex :: earlier)
    (distinct : walk.path.Nodup) :
    walk.cycleThrough vertex = (vertex :: later.reverse) ++ [vertex] := by
  have isOnPath : vertex ∈ walk.path := by simp [path]
  have notEarlier : ∀ other ∈ earlier.reverse, other ≠ vertex := by
    intro other isEarlier equal
    rw [path] at distinct
    have tailDistinct := (List.nodup_append.1 distinct).2.1
    apply (List.nodup_cons.1 tailDistinct).1
    rw [← equal]
    exact List.mem_reverse.1 isEarlier
  have reversed : walk.path.reverse =
      earlier.reverse ++ vertex :: later.reverse := by
    rw [path]
    simp
  rw [cycleThrough_eq_dropWhile isOnPath, reversed,
    List.dropWhile_append_of_pos (by simpa using notEarlier),
    List.dropWhile_cons_of_neg (by simp)]

/-- When the next successor is in progress, its place on the path of a coherent walk
is found, and the cycle starts there. -/
theorem CoherentBelow.exists_turn_eq_cycle
    {graph : Graph Vertex} {walk : Walk Vertex} {vertex successor : Vertex}
    {rest : List Vertex} {below : List (Vertex × List Vertex)}
    (coherent : Coherent graph walk)
    (stack : walk.stack = (vertex, successor :: rest) :: below)
    (isInProgress : walk.mark? successor = some .inProgress) :
    ∃ start, walk.path.reverse.idxOf? successor = some start ∧
      walk.turn graph = .cycle (walk.path.reverse.drop start ++ [successor]) := by
  have isOnPath : successor ∈ walk.path.reverse :=
    List.mem_reverse.2 ((coherent.inProgress_iff successor).1 isInProgress)
  rcases Option.isSome_iff_exists.1 (List.isSome_idxOf?.2 isOnPath) with ⟨start, found⟩
  refine ⟨start, found, ?_⟩
  rw [← cycleThrough_eq_drop found, turn, stack]
  simp only [isInProgress]

/-- A turn of a coherent walk reports only simple cycles. -/
theorem CoherentBelow.isSimpleCycle_of_turn
    {graph : Graph Vertex} {walk : Walk Vertex} {cycle : List Vertex}
    (coherent : Coherent graph walk)
    (equation : walk.turn graph = .cycle cycle) :
    graph.IsSimpleCycle cycle := by
  rcases exists_of_turn_cycle equation with
    ⟨vertex, successor, rest, below, stack, isInProgress, rfl⟩
  have isOnPath := (coherent.inProgress_iff successor).1 isInProgress
  rcases List.append_of_mem isOnPath with ⟨later, earlier, path⟩
  have distinct := coherent.path_nodup
  -- The successor waits above the path and is on it, which closes the cycle.
  have chain : (successor :: walk.path).IsChain fun later earlier =>
      graph.DependsOn earlier later := (coherent.await stack).path_edges
  rw [cycleThrough_eq path distinct]
  rw [path] at distinct chain
  have closing : (successor :: (later ++ [successor])).IsChain fun later earlier =>
      graph.DependsOn earlier later :=
    chain.prefix ⟨earlier, by simp⟩
  have reversed : (successor :: later.reverse) ++ [successor] =
      (successor :: (later ++ [successor])).reverse := by
    simp
  refine
    { two_le_length := by simp
      closed := by rw [List.getLast?_concat]; rfl
      edges := ?_
      distinct := ?_ }
  · rw [reversed]
    exact List.isChain_reverse.2 closing
  · rw [List.dropLast_concat]
    have kept : (later ++ [successor]).Nodup := distinct.sublist (by simp)
    simpa using List.nodup_reverse.2 kept

end Walk

namespace Graph

/-- In a graph without dangling edges a search reports only simple cycles. -/
theorem isSimpleCycle_of_search
    {graph : Graph Vertex} {cycle : List Vertex}
    (closed : graph.Closed)
    (equation : graph.search = .cyclic cycle) :
    graph.IsSimpleCycle cycle := by
  rcases graph.search_cases with ⟨walk, _, _, _, other⟩ | ⟨walk, found, arises, turn, same⟩
  · rw [other] at equation
    cases equation
  · rw [same] at equation
    cases equation
    exact (arises.coherent closed).isSimpleCycle_of_turn turn

end Graph

end TarnBuild
