/-!
# Dependency graphs

A graph lists its vertices, each once, and for each vertex its successors, in
a definite order and possibly with repetitions.  An edge from one vertex to
another says that the first depends on the second.  A successor need not be a
vertex; an edge to such a successor dangles.
-/

namespace TarnBuild

variable {Vertex : Type}

/-- A finite graph with an order of its vertices and of their successors. -/
structure Graph (Vertex : Type) where
  adjacency : List (Vertex × List Vertex)
  distinct : (adjacency.map Prod.fst).Nodup

namespace Graph

/-- The vertices in their order. -/
def vertices (graph : Graph Vertex) : List Vertex :=
  graph.adjacency.map Prod.fst

variable [DecidableEq Vertex]

/-- The successors of a vertex in their order. -/
def successors? (graph : Graph Vertex) (vertex : Vertex) : Option (List Vertex) :=
  graph.adjacency.lookup vertex

/-- Whether the graph has an edge from one vertex to another. -/
def DependsOn (graph : Graph Vertex) (source target : Vertex) : Prop :=
  ∃ successors, graph.successors? source = some successors ∧ target ∈ successors

/-- An edge to something that is not a vertex. -/
structure DanglingEdge (Vertex : Type) where
  vertex : Vertex
  missing : Vertex
  deriving DecidableEq, Repr

/-- The first dangling edge in the order of the graph. -/
def danglingEdge? (graph : Graph Vertex) : Option (DanglingEdge Vertex) :=
  graph.adjacency.findSome? fun entry =>
    (entry.2.find? (· ∉ graph.vertices)).map (⟨entry.1, ·⟩)

/-- Every edge leads to a vertex. -/
def Closed (graph : Graph Vertex) : Prop :=
  ∀ source target, graph.DependsOn source target → target ∈ graph.vertices

theorem mem_vertices_of_successors?
    {graph : Graph Vertex} {vertex : Vertex} {successors : List Vertex}
    (listed : graph.successors? vertex = some successors) :
    vertex ∈ graph.vertices := by
  obtain ⟨before, after, equation, _⟩ := List.lookup_eq_some_iff.1 listed
  simp [vertices, equation]

/-- Put the successors of a vertex into a list of entries, in the place of the
entry that the vertex had before, if it had one. -/
def putEntry (vertex : Vertex) (successors : List Vertex) :
    List (Vertex × List Vertex) → List (Vertex × List Vertex)
  | [] => [(vertex, successors)]
  | entry :: rest =>
      if entry.1 = vertex then
        (vertex, successors) :: rest
      else
        entry :: putEntry vertex successors rest

theorem mem_map_putEntry
    {vertex other : Vertex} {successors : List Vertex}
    {entries : List (Vertex × List Vertex)} :
    other ∈ (putEntry vertex successors entries).map Prod.fst ↔
      other = vertex ∨ other ∈ entries.map Prod.fst := by
  induction entries with
  | nil => simp [putEntry]
  | cons entry rest ih =>
      simp only [putEntry]
      split
      · next equal => subst equal; simp
      · simp only [List.map_cons, List.mem_cons, ih]
        exact or_left_comm

theorem nodup_putEntry
    (vertex : Vertex) (successors : List Vertex)
    {entries : List (Vertex × List Vertex)}
    (distinct : (entries.map Prod.fst).Nodup) :
    ((putEntry vertex successors entries).map Prod.fst).Nodup := by
  induction entries with
  | nil => simp [putEntry]
  | cons entry rest ih =>
      rw [List.map_cons, List.nodup_cons] at distinct
      simp only [putEntry]
      split
      · next equal =>
          rw [List.map_cons, List.nodup_cons]
          exact ⟨equal ▸ distinct.1, distinct.2⟩
      · next different =>
          rw [List.map_cons, List.nodup_cons]
          refine ⟨fun isMember => ?_, ih distinct.2⟩
          rcases mem_map_putEntry.1 isMember with equal | inRest
          · exact different equal
          · exact distinct.1 inRest

/-- The graph with other successors of a vertex, which becomes a vertex if it
was none. -/
def put (graph : Graph Vertex) (vertex : Vertex) (successors : List Vertex) :
    Graph Vertex :=
  ⟨putEntry vertex successors graph.adjacency,
    nodup_putEntry vertex successors graph.distinct⟩

/-- The graph with the given entries, of which a later one replaces an earlier
one of the same vertex. -/
def ofEntries (entries : List (Vertex × List Vertex)) : Graph Vertex :=
  entries.foldl (fun graph entry => graph.put entry.1 entry.2) ⟨[], .nil⟩

/-- The graph with its vertices and successors put in order, and without
repeated successors. -/
def arranged (before : Vertex → Vertex → Bool) (graph : Graph Vertex) :
    Graph Vertex where
  adjacency :=
    (graph.adjacency.mergeSort fun first second => before first.1 second.1).map
      fun entry => (entry.1, entry.2.eraseDups.mergeSort before)
  distinct := by
    have sorted := (List.mergeSort_perm graph.adjacency
      fun first second => before first.1 second.1).map Prod.fst
    simpa [Function.comp_def] using sorted.nodup_iff.2 graph.distinct

end Graph

end TarnBuild
