import TarnBuild.Graph.Walk

/-!
# Orders and cycles

A graph without dangling edges either has an order in which every vertex stands
after all its successors, or it has a cycle.  The analysis walks from every
vertex that has successors, in the order of the graph.  What is then still
unmarked has no edges at all and is put at the end.
-/

namespace TarnBuild

variable {Vertex : Type}

/-- What a graph without dangling edges turns out to be. -/
inductive Analysis (Vertex : Type) where
  /-- Every vertex once, after all its successors. -/
  | acyclic (order : List Vertex)
  /-- A path along edges that ends where it starts. -/
  | cyclic (cycle : List Vertex)
  deriving DecidableEq, Repr

namespace Analysis

/-- Whether the graph has no cycle. -/
def isAcyclic : Analysis Vertex → Bool
  | acyclic _ => true
  | cyclic _ => false

/-- The order of the vertices, if the graph has no cycle. -/
def order? : Analysis Vertex → Option (List Vertex)
  | acyclic order => some order
  | cyclic _ => none

end Analysis

namespace Graph

/-- The vertices that have successors, in their order. -/
def roots (graph : Graph Vertex) : List Vertex :=
  (graph.adjacency.filter fun entry => !entry.2.isEmpty).map Prod.fst

variable [DecidableEq Vertex]

/-- Find an order or a cycle, whether or not edges dangle. -/
def search (graph : Graph Vertex) : Analysis Vertex :=
  match graph.roots.foldlM (Walk.visit graph) Walk.start with
  | .error cycle => .cyclic cycle
  | .ok walk =>
      .acyclic (graph.vertices.foldl Walk.finishIsolated walk).finished.reverse

/-- Find an order or a cycle, unless an edge dangles. -/
def analyze (graph : Graph Vertex) : Except (DanglingEdge Vertex) (Analysis Vertex) :=
  match graph.danglingEdge? with
  | some edge => .error edge
  | none => .ok graph.search

end Graph

/-- The message for a dangling edge, given how vertices are shown. -/
def Graph.DanglingEdge.message (showVertex : Vertex → String)
    (edge : Graph.DanglingEdge Vertex) : String :=
  "Invalid graph: " ++ showVertex edge.vertex ++ " depends on " ++
    showVertex edge.missing ++ ", which is not a vertex"

/-- The message for a cycle, given how vertices are shown. -/
def cycleMessage (showVertex : Vertex → String) (cycle : List Vertex) : String :=
  "Dependency cycle detected: " ++ " -> ".intercalate (cycle.map showVertex)

end TarnBuild
