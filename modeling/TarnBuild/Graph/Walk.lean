import TarnBuild.Graph.Basic

/-!
# Depth-first walks

A walk keeps its own stack, so it can go as deep as the graph.  A vertex is in
progress while it is on the stack and done once all its successors are.  In
each turn the walk looks at the next successor of the top vertex: it passes
over a successor that is done, enters one that has no mark, and has found a
cycle when it meets one in progress.  A vertex without further successors is
left.  A successor that is not a vertex of the graph has none of its own, so
that it is entered and left at once.

Every turn that is followed by another one enters a new vertex of the graph, or
else consumes a successor, or else leaves a vertex.  Therefore each walk ends.
-/

namespace TarnBuild

variable {Vertex : Type}

/-- How far a walk is with a vertex that it has entered. -/
inductive Walk.Mark where
  | inProgress
  | done
  deriving DecidableEq, Repr

/-- The state of a walk. -/
structure Walk (Vertex : Type) where
  /-- The marks given so far, the latest first. -/
  marks : List (Vertex × Walk.Mark)
  /-- The vertices in progress, the latest first. -/
  path : List Vertex
  /-- The vertices that are done, the latest first. -/
  finished : List Vertex
  /-- The vertices in progress, the latest first, each with the successors that
  are still to be looked at. -/
  stack : List (Vertex × List Vertex)
  deriving Repr

/-- What a turn of a walk comes to. -/
inductive Turn (Vertex : Type) where
  /-- The stack is empty. -/
  | over
  /-- A cycle, from a vertex in progress back to it. -/
  | cycle (cycle : List Vertex)
  /-- The state for the next turn. -/
  | next (walk : Walk Vertex)

namespace Walk

/-- The walk that has not entered any vertex. -/
def start : Walk Vertex := ⟨[], [], [], []⟩

instance : Inhabited (Walk Vertex) := ⟨start⟩

variable [DecidableEq Vertex]

/-- The mark of a vertex. -/
def mark? (walk : Walk Vertex) (vertex : Vertex) : Option Mark :=
  walk.marks.lookup vertex

/-- Enter a vertex with given successors. -/
def enter (walk : Walk Vertex) (vertex : Vertex) (successors : List Vertex) :
    Walk Vertex where
  marks := (vertex, .inProgress) :: walk.marks
  path := vertex :: walk.path
  finished := walk.finished
  stack := (vertex, successors) :: walk.stack

/-- Leave the top vertex of the stack, below which the given stack remains. -/
def leave (walk : Walk Vertex) (vertex : Vertex) (below : List (Vertex × List Vertex)) :
    Walk Vertex where
  marks := (vertex, .done) :: walk.marks
  path := walk.path.tail
  finished := vertex :: walk.finished
  stack := below

/-- The part of the path from the first place of a vertex on, or the whole path if the
vertex is not there, closed by that vertex. -/
def cycleThrough (walk : Walk Vertex) (vertex : Vertex) : List Vertex :=
  let path := walk.path.reverse
  path.drop ((path.idxOf? vertex).getD 0) ++ [vertex]

/-- One turn of a walk. -/
def turn (graph : Graph Vertex) (walk : Walk Vertex) : Turn Vertex :=
  match walk.stack with
  | [] => .over
  | (vertex, []) :: below => .next (walk.leave vertex below)
  | (vertex, successor :: rest) :: below =>
      let resumed := { walk with stack := (vertex, rest) :: below }
      match walk.mark? successor with
      | some .done => .next resumed
      | some .inProgress => .cycle (walk.cycleThrough successor)
      | none => .next (resumed.enter successor ((graph.successors? successor).getD []))

/-- The number of vertices of a graph that have no mark. -/
def unmarked (graph : Graph Vertex) (walk : Walk Vertex) : Nat :=
  graph.vertices.countP fun vertex => (walk.mark? vertex).isNone

/-- The number of successors on the stack that are still to be looked at. -/
def unconsumed (walk : Walk Vertex) : Nat :=
  (walk.stack.flatMap Prod.snd).length

/-- A vertex without a mark had none before the latest mark either. -/
theorem isNone_mark?_of_cons
    {vertex other : Vertex} {mark : Mark} {walk marked : Walk Vertex}
    (marks : marked.marks = (vertex, mark) :: walk.marks)
    (isUnmarked : (marked.mark? other).isNone) :
    (walk.mark? other).isNone := by
  simp only [mark?, marks, List.lookup_cons] at isUnmarked ⊢
  split at isUnmarked
  · simp at isUnmarked
  · exact isUnmarked

/-- A mark does not make more vertices unmarked. -/
theorem unmarked_cons_le
    (graph : Graph Vertex) (vertex : Vertex) (mark : Mark)
    {walk marked : Walk Vertex}
    (marks : marked.marks = (vertex, mark) :: walk.marks) :
    marked.unmarked graph ≤ walk.unmarked graph :=
  List.countP_mono_left fun _ _ => isNone_mark?_of_cons marks

/-- The first mark of a vertex makes fewer vertices unmarked. -/
theorem unmarked_cons_lt
    {graph : Graph Vertex} {vertex : Vertex} {mark : Mark}
    {walk marked : Walk Vertex}
    (marks : marked.marks = (vertex, mark) :: walk.marks)
    (isVertex : vertex ∈ graph.vertices)
    (isUnmarked : walk.mark? vertex = none) :
    marked.unmarked graph < walk.unmarked graph := by
  obtain ⟨before, after, equation⟩ := List.append_of_mem isVertex
  have countLe (others : List Vertex) :
      others.countP (fun other => (marked.mark? other).isNone) ≤
        others.countP fun other => (walk.mark? other).isNone :=
    List.countP_mono_left fun _ _ => isNone_mark?_of_cons marks
  have beforeLe := countLe before
  have afterLe := countLe after
  have nowMarked : marked.mark? vertex = some mark := by
    simp [mark?, marks]
  simp only [unmarked, equation, List.countP_append, List.countP_cons, isUnmarked,
    nowMarked, Option.isNone_none, Option.isNone_some]
  simp
  omega

/-- The measure of a walk decreases with every turn. -/
theorem decreases_of_turn
    {graph : Graph Vertex} {walk after : Walk Vertex}
    (equation : walk.turn graph = .next after) :
    Prod.Lex (· < ·) (Prod.Lex (· < ·) (· < ·))
      (after.unmarked graph, after.unconsumed, after.stack.length)
      (walk.unmarked graph, walk.unconsumed, walk.stack.length) := by
  unfold turn at equation
  split at equation
  · cases equation
  · next vertex below stack =>
      cases equation
      have le : (walk.leave vertex below).unmarked graph ≤ walk.unmarked graph :=
        unmarked_cons_le graph vertex .done rfl
      have same : (walk.leave vertex below).unconsumed = walk.unconsumed := by
        simp [unconsumed, leave, stack]
      have lower : (walk.leave vertex below).stack.length < walk.stack.length := by
        simp [leave, stack]
      exact .right' _ le (same ▸ .right _ lower)
  · next vertex successor rest below stack =>
      have fewer : (rest ++ below.flatMap Prod.snd).length < walk.unconsumed := by
        simp [unconsumed, stack]
      split at equation
      · cases equation
        exact .right _ (.left _ _ fewer)
      · cases equation
      · next isUnmarked =>
          cases equation
          cases listed : graph.successors? successor with
          | some successors =>
              exact .left _ _ <| unmarked_cons_lt rfl
                (Graph.mem_vertices_of_successors? listed) isUnmarked
          | none =>
              exact .right' _ (unmarked_cons_le graph successor .inProgress rfl)
                (.left _ _ fewer)

/-- Take turns until the stack is empty or a cycle is found. -/
def run (graph : Graph Vertex) (walk : Walk Vertex) :
    Except (List Vertex) (Walk Vertex) :=
  match _equation : walk.turn graph with
  | .over => .ok walk
  | .cycle cycle => .error cycle
  | .next after => after.run graph
termination_by (walk.unmarked graph, walk.unconsumed, walk.stack.length)
decreasing_by exact decreases_of_turn _equation

/-- Walk from a vertex, unless it is marked already. -/
def visit (graph : Graph Vertex) (walk : Walk Vertex) (root : Vertex) :
    Except (List Vertex) (Walk Vertex) :=
  match walk.mark? root with
  | some _ => .ok walk
  | none => (walk.enter root ((graph.successors? root).getD [])).run graph

/-- Put a vertex without a mark among those that are done. -/
def finishIsolated (walk : Walk Vertex) (vertex : Vertex) : Walk Vertex :=
  match walk.mark? vertex with
  | some _ => walk
  | none =>
      { walk with
        marks := (vertex, .done) :: walk.marks
        finished := vertex :: walk.finished }

end Walk

end TarnBuild
