import TarnBuild.Proofs.Graph.Order

/-!
# Orders that leave no choice

When every vertex of an order depends directly on the one just before it, no
other order puts each vertex after all its successors.  The analysis of such a
graph answers with this order, from wherever its walks start and in whatever
order they meet the successors of a vertex.
-/

namespace TarnBuild.Graph

variable {Vertex : Type} [DecidableEq Vertex]
  {graph other : Graph Vertex} {order steps : List Vertex}

/-! ## The only order -/

/-- Each vertex of a list but the first depends directly on the one just before
it. -/
def IsLadder (graph : Graph Vertex) (steps : List Vertex) : Prop :=
  steps.IsChain fun below above => graph.DependsOn above below

/-- A dependency order goes up every ladder. -/
theorem IsDependencyOrder.pairwise_idxOf_lt_of_isLadder
    (isOrder : graph.IsDependencyOrder order)
    (isLadder : graph.IsLadder steps) :
    steps.Pairwise fun first second => order.idxOf first < order.idxOf second := by
  have distinct : order.Nodup := isOrder.perm.nodup_iff.2 graph.nodup_vertices
  have climbs : (steps.map order.idxOf).IsChain (· < ·) :=
    (List.isChain_map _).2 <| isLadder.imp fun _ _ edge =>
      (isOrder.after _ _ edge).idxOf_lt distinct
  exact List.pairwise_map.1 climbs.pairwise

/-- A ladder through all vertices is the only dependency order. -/
theorem IsDependencyOrder.eq_of_isLadder
    (isOrder : graph.IsDependencyOrder order)
    (perm : steps.Perm graph.vertices)
    (isLadder : graph.IsLadder steps) :
    order = steps := by
  have distinct : order.Nodup := isOrder.perm.nodup_iff.2 graph.nodup_vertices
  have inOrder : order.Pairwise fun first second => order.idxOf first < order.idxOf second :=
    List.pairwise_iff_forall_sublist.2 fun stands => StandsBefore.idxOf_lt distinct stands
  exact List.Perm.eq_of_pairwise
    (fun _ _ _ _ less greater => (Nat.lt_asymm less greater).elim)
    inOrder (isOrder.pairwise_idxOf_lt_of_isLadder isLadder) (isOrder.perm.trans perm.symm)

/-! ## Other listings of a graph -/

/-- A graph has the vertices and the edges of another one, in an order of its own
and with repetitions of its own among the successors. -/
structure Relists (other graph : Graph Vertex) : Prop where
  vertices : other.vertices.Perm graph.vertices
  edges : ∀ source target, other.DependsOn source target ↔ graph.DependsOn source target

namespace Relists

variable (relists : other.Relists graph)

include relists

theorem dependsOn_eq : other.DependsOn = graph.DependsOn := by
  funext source target
  exact propext (relists.edges source target)

theorem closed_iff : other.Closed ↔ graph.Closed := by
  simp only [Closed, relists.edges, relists.vertices.mem_iff]

theorem hasCycle_iff : other.HasCycle ↔ graph.HasCycle := by
  rw [HasCycle, HasCycle, relists.dependsOn_eq]

theorem isLadder_iff : other.IsLadder steps ↔ graph.IsLadder steps := by
  rw [IsLadder, IsLadder, relists.dependsOn_eq]

end Relists

/-! ## The analysis of a ladder -/

theorem analyze_eq_of_isLadder
    (closed : graph.Closed)
    (noCycle : ¬ graph.HasCycle)
    (perm : steps.Perm graph.vertices)
    (isLadder : graph.IsLadder steps) :
    graph.analyze = .ok (.acyclic steps) := by
  rcases exists_search_eq_acyclic closed noCycle with ⟨order, found⟩
  have isOrder := isDependencyOrder_of_search closed found
  rw [isOrder.eq_of_isLadder perm isLadder] at found
  exact analyze_eq_ok_iff.2 ⟨closed, found⟩

/-- If the vertices of a graph without dangling edges and without cycles can be
listed so that each depends directly on the one before, the analysis answers with
that list for every listing of the graph.  If the analysis answers with such a list
once, it does so for every listing of the graph. -/
theorem analyze_relisting_eq_of_isLadder
    (graph : Graph Vertex) (steps : List Vertex)
    (isLadder : graph.IsLadder steps) :
    (graph.Closed → ¬ graph.HasCycle → steps.Perm graph.vertices →
        ∀ other : Graph Vertex, other.Relists graph →
          other.analyze = .ok (.acyclic steps)) ∧
      (graph.analyze = .ok (.acyclic steps) →
        ∀ other : Graph Vertex, other.Relists graph →
          other.analyze = .ok (.acyclic steps)) := by
  have everyListing (closed : graph.Closed) (noCycle : ¬ graph.HasCycle)
      (perm : steps.Perm graph.vertices) (other : Graph Vertex)
      (relists : other.Relists graph) :
      other.analyze = .ok (.acyclic steps) :=
    analyze_eq_of_isLadder (relists.closed_iff.2 closed) (mt relists.hasCycle_iff.1 noCycle)
      (perm.trans relists.vertices.symm) (relists.isLadder_iff.2 isLadder)
  refine ⟨everyListing, fun answered => ?_⟩
  rcases analyze_eq_ok_iff.1 answered with ⟨closed, found⟩
  have isOrder := isDependencyOrder_of_search closed found
  exact everyListing closed isOrder.not_hasCycle isOrder.perm

/-- A ladder of four vertices with two shortcuts. -/
def stairs : Graph Nat :=
  ⟨[(2, [0, 1]), (0, []), (3, [2, 1]), (1, [0])], by decide⟩

/-- The same vertices and edges from the top on, with a repetition. -/
def stairsFromTop : Graph Nat :=
  ⟨[(3, [1, 2]), (2, [1, 0, 1]), (1, [0]), (0, [])], by decide⟩

theorem stairsFromTop_relists_stairs : stairsFromTop.Relists stairs where
  vertices := by decide
  edges source target := by
    have there : ∀ entry ∈ stairsFromTop.adjacency, ∀ target ∈ entry.2,
        ∃ other ∈ stairs.adjacency, other.1 = entry.1 ∧ target ∈ other.2 := by decide
    have back : ∀ entry ∈ stairs.adjacency, ∀ target ∈ entry.2,
        ∃ other ∈ stairsFromTop.adjacency, other.1 = entry.1 ∧ target ∈ other.2 := by decide
    rw [dependsOn_iff_exists_entry, dependsOn_iff_exists_entry]
    constructor
    · rintro ⟨entry, isEntry, rfl, isTarget⟩
      exact there entry isEntry target isTarget
    · rintro ⟨entry, isEntry, rfl, isTarget⟩
      exact back entry isEntry target isTarget

theorem stairs_analyzed_alike :
    stairs.IsLadder [0, 1, 2, 3] ∧ stairs.Closed ∧ ¬ stairs.HasCycle ∧
      [0, 1, 2, 3].Perm stairs.vertices ∧ stairsFromTop.Relists stairs ∧
      stairs.analyze = .ok (.acyclic [0, 1, 2, 3]) ∧
      stairsFromTop.analyze = .ok (.acyclic [0, 1, 2, 3]) := by
  have steps : [0, 1, 2, 3].IsChain fun below above =>
      ∃ entry ∈ stairs.adjacency, entry.1 = above ∧ below ∈ entry.2 := by decide
  have isLadder : stairs.IsLadder [0, 1, 2, 3] :=
    steps.imp fun _ _ => dependsOn_iff_exists_entry.2
  have closed : stairs.Closed := danglingEdge?_eq_none_iff.1 (by decide)
  have perm : [0, 1, 2, 3].Perm stairs.vertices := by decide
  have down : ∀ entry ∈ stairs.adjacency, ∀ target ∈ entry.2,
      StandsBefore [0, 1, 2, 3] target entry.1 := by
    unfold StandsBefore
    decide
  have noCycle : ¬ stairs.HasCycle := by
    refine IsDependencyOrder.not_hasCycle ⟨perm, fun vertex target edge => ?_⟩
    rcases dependsOn_iff_exists_entry.1 edge with ⟨entry, isEntry, rfl, isTarget⟩
    exact down entry isEntry target isTarget
  obtain ⟨answers, keepsAnswer⟩ := analyze_relisting_eq_of_isLadder stairs _ isLadder
  have answered := answers closed noCycle perm stairs ⟨.refl _, fun _ _ => .rfl⟩
  exact ⟨isLadder, closed, noCycle, perm, stairsFromTop_relists_stairs, answered,
    keepsAnswer answered stairsFromTop stairsFromTop_relists_stairs⟩

end TarnBuild.Graph
