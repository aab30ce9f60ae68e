import TarnBuild.Proofs.Graph.Order

/-!
# Traces of a search

A traced search does what a search does and notes every root that it enters and
every turn that it takes, each with the state of its walk at that time.  Without
these notes it ends as the search does.

What a trace notes can be told step by step: each moment is due after those
before it.  So what holds at the start and is kept by entering a root and by
every turn holds at the start of every turn that a search takes.
-/

namespace TarnBuild

variable {Vertex : Type} [DecidableEq Vertex]

/-- What a search does next, and the state of its walk at that time. -/
inductive Moment (Vertex : Type) where
  /-- It enters a root. -/
  | root (walk : Walk Vertex) (root : Vertex)
  /-- It takes a turn. -/
  | turn (walk : Walk Vertex)

/-- The moments of a computation in their order, and how it ends: with a cycle, or
with a walk that can go on. -/
structure Traced (Vertex : Type) where
  moments : List (Moment Vertex)
  ends : Except (List Vertex) (Walk Vertex)

omit [DecidableEq Vertex] in
/-- The walk as it is at a moment. -/
def Moment.walk : Moment Vertex → Walk Vertex
  | root walk _ => walk
  | turn walk => walk

/-! ## The traced search -/

/-- Take turns until the stack is empty or a cycle is found, and note them. -/
def Walk.tracedRun (graph : Graph Vertex) (walk : Walk Vertex) : Traced Vertex :=
  match _equation : walk.turn graph with
  | .over => ⟨[.turn walk], .ok walk⟩
  | .cycle cycle => ⟨[.turn walk], .error cycle⟩
  | .next after =>
      let later := after.tracedRun graph
      ⟨.turn walk :: later.moments, later.ends⟩
termination_by (walk.unmarked graph, walk.unconsumed, walk.stack.length)
decreasing_by exact decreases_of_turn _equation

/-- Walk from a vertex, unless it is marked already, and note it. -/
def Walk.tracedVisit (graph : Graph Vertex) (walk : Walk Vertex) (root : Vertex) :
    Traced Vertex :=
  match walk.mark? root with
  | some _ => ⟨[], .ok walk⟩
  | none =>
      let run := (walk.enter root ((graph.successors? root).getD [])).tracedRun graph
      ⟨.root walk root :: run.moments, run.ends⟩

namespace Graph

/-- Walk from several vertices, one after the other, and note it. -/
def tracedVisits (graph : Graph Vertex) : List Vertex → Walk Vertex → Traced Vertex
  | [], walk => ⟨[], .ok walk⟩
  | root :: others, walk =>
      let visit := walk.tracedVisit graph root
      match visit.ends with
      | .error cycle => ⟨visit.moments, .error cycle⟩
      | .ok after =>
          let later := graph.tracedVisits others after
          ⟨visit.moments ++ later.moments, later.ends⟩

/-- All moments of a search. -/
def trace (graph : Graph Vertex) : Traced Vertex :=
  graph.tracedVisits graph.roots Walk.start

end Graph

/-! ## The search without its notes -/

namespace Walk

variable {graph : Graph Vertex} {walk : Walk Vertex}

theorem tracedRun_of_over (equation : walk.turn graph = .over) :
    walk.tracedRun graph = ⟨[.turn walk], .ok walk⟩ := by
  rw [tracedRun]
  split <;> simp_all

theorem tracedRun_of_cycle {cycle : List Vertex} (equation : walk.turn graph = .cycle cycle) :
    walk.tracedRun graph = ⟨[.turn walk], .error cycle⟩ := by
  rw [tracedRun]
  split <;> simp_all

/-- A turn that leads on is noted in front of all that come after it. -/
theorem tracedRun_of_next
    {after : Walk Vertex} {traced : Traced Vertex}
    (equation : walk.turn graph = .next after)
    (later : after.tracedRun graph = traced) :
    walk.tracedRun graph = ⟨.turn walk :: traced.moments, traced.ends⟩ := by
  rw [tracedRun]
  split <;> simp_all

theorem tracedVisit_of_marked
    {root : Vertex} {mark : Mark}
    (isMarked : walk.mark? root = some mark) :
    walk.tracedVisit graph root = ⟨[], .ok walk⟩ := by
  rw [tracedVisit, isMarked]

theorem tracedVisit_of_unmarked
    {root : Vertex} {traced : Traced Vertex}
    (isUnmarked : walk.mark? root = none)
    (run : (walk.enter root ((graph.successors? root).getD [])).tracedRun graph = traced) :
    walk.tracedVisit graph root = ⟨.root walk root :: traced.moments, traced.ends⟩ := by
  rw [tracedVisit, isUnmarked]
  simp only [run]

/-- Noting the turns does not change how they end. -/
theorem ends_tracedRun (graph : Graph Vertex) (walk : Walk Vertex) :
    (walk.tracedRun graph).ends = walk.run graph := by
  fun_induction run graph walk with
  | case1 walk equation => rw [tracedRun_of_over equation]
  | case2 walk cycle equation => rw [tracedRun_of_cycle equation]
  | case3 walk after equation ih => rw [tracedRun_of_next equation rfl, ih]

theorem ends_tracedVisit (graph : Graph Vertex) (walk : Walk Vertex) (root : Vertex) :
    (walk.tracedVisit graph root).ends = walk.visit graph root := by
  rw [tracedVisit, visit]
  cases walk.mark? root with
  | some mark => rfl
  | none => exact ends_tracedRun graph _

end Walk

namespace Graph

section Visits

variable {graph : Graph Vertex} {walk : Walk Vertex} {root : Vertex} {others : List Vertex}
  {moments : List (Moment Vertex)}

theorem tracedVisits_of_cycle
    {cycle : List Vertex}
    (visit : walk.tracedVisit graph root = ⟨moments, .error cycle⟩) :
    graph.tracedVisits (root :: others) walk = ⟨moments, .error cycle⟩ := by
  simp only [tracedVisits, visit]

/-- The moments of a visit come before those of the visits after it. -/
theorem tracedVisits_of_next
    {after : Walk Vertex} {traced : Traced Vertex}
    (visit : walk.tracedVisit graph root = ⟨moments, .ok after⟩)
    (later : graph.tracedVisits others after = traced) :
    graph.tracedVisits (root :: others) walk =
      ⟨moments ++ traced.moments, traced.ends⟩ := by
  simp only [tracedVisits, visit, later]

end Visits

theorem ends_tracedVisits (graph : Graph Vertex) (roots : List Vertex)
    (walk : Walk Vertex) :
    (graph.tracedVisits roots walk).ends = roots.foldlM (Walk.visit graph) walk := by
  induction roots generalizing walk with
  | nil => rfl
  | cons root others ih =>
      rw [tracedVisits, List.foldlM_cons, Walk.ends_tracedVisit]
      cases walk.visit graph root with
      | error cycle => rfl
      | ok after => exact ih after

/-- A traced search ends as the search does. -/
theorem search_eq_of_trace (graph : Graph Vertex) :
    graph.search = match graph.trace.ends with
      | .error cycle => .cyclic cycle
      | .ok walk =>
          .acyclic (graph.vertices.foldl Walk.finishIsolated walk).finished.reverse := by
  rw [trace, ends_tracedVisits]
  rfl

/-! ## One moment after the other -/

variable {graph : Graph Vertex} {past : List (Moment Vertex)} {walk : Walk Vertex}

/-- Some moments of a search, one after the other, lead to a state. -/
inductive Leads (graph : Graph Vertex) : List (Moment Vertex) → Walk Vertex → Prop where
  | start : Leads graph [] Walk.start
  | root {past : List (Moment Vertex)} {walk : Walk Vertex} {root : Vertex}
      (leads : Leads graph past walk)
      (isOver : walk.stack = [])
      (isRoot : root ∈ graph.roots)
      (isUnmarked : walk.mark? root = none) :
      Leads graph (past ++ [.root walk root])
        (walk.enter root ((graph.successors? root).getD []))
  | turn {past : List (Moment Vertex)} {walk after : Walk Vertex}
      (leads : Leads graph past walk)
      (equation : walk.turn graph = .next after) :
      Leads graph (past ++ [.turn walk]) after
  /-- The last turn of a run finds the stack empty. -/
  | ended {past : List (Moment Vertex)} {walk : Walk Vertex}
      (leads : Leads graph past walk)
      (isOver : walk.stack = []) :
      Leads graph (past ++ [.turn walk]) walk

theorem Leads.arises (leads : graph.Leads past walk) : graph.Arises walk := by
  induction leads with
  | start => exact .start
  | root _ isOver isRoot isUnmarked ih => exact .root ih isOver isRoot isUnmarked
  | turn _ equation ih => exact .turn ih equation
  | ended _ _ ih => exact ih

/-- A moment can come next after others. -/
def IsDue (graph : Graph Vertex) (past : List (Moment Vertex)) : Moment Vertex → Prop
  | .root walk root =>
      graph.Leads past walk ∧ walk.stack = [] ∧ root ∈ graph.roots ∧ walk.mark? root = none
  | .turn walk => graph.Leads past walk

/-- Each of some moments is due after those before it. -/
def IsSequel (graph : Graph Vertex) (past : List (Moment Vertex)) : List (Moment Vertex) → Prop
  | [] => True
  | moment :: moments => graph.IsDue past moment ∧ graph.IsSequel (past ++ [moment]) moments

/-- Moments can be added one after the other or all at once. -/
theorem isSequel_append {moments others : List (Moment Vertex)} :
    graph.IsSequel past (moments ++ others) ↔
      graph.IsSequel past moments ∧ graph.IsSequel (past ++ moments) others := by
  induction moments generalizing past with
  | nil => simp [IsSequel]
  | cons moment moments ih => simp [IsSequel, ih, and_assoc]

/-- The turns of a walk follow on what led to it, and after them the walk is
over. -/
theorem isSequel_tracedRun (leads : graph.Leads past walk) :
    graph.IsSequel past (walk.tracedRun graph).moments ∧
      ∀ after, (walk.tracedRun graph).ends = .ok after →
        graph.Leads (past ++ (walk.tracedRun graph).moments) after ∧ after.stack = [] := by
  fun_induction Walk.run graph walk generalizing past with
  | case1 walk equation =>
      have isOver := Walk.stack_eq_nil_of_turn_over equation
      rw [Walk.tracedRun_of_over equation]
      refine ⟨⟨leads, trivial⟩, ?_⟩
      rintro after ⟨⟩
      exact ⟨leads.ended isOver, isOver⟩
  | case2 walk cycle equation =>
      rw [Walk.tracedRun_of_cycle equation]
      refine ⟨⟨leads, trivial⟩, fun after ends => ?_⟩
      cases ends
  | case3 walk after equation ih =>
      rw [Walk.tracedRun_of_next equation rfl]
      obtain ⟨isSequel, continues⟩ := ih (leads.turn equation)
      refine ⟨⟨leads, isSequel⟩, fun last ends => ?_⟩
      simpa using continues last ends

theorem isSequel_tracedVisit
    {root : Vertex}
    (leads : graph.Leads past walk)
    (isOver : walk.stack = [])
    (isRoot : root ∈ graph.roots) :
    graph.IsSequel past (walk.tracedVisit graph root).moments ∧
      ∀ after, (walk.tracedVisit graph root).ends = .ok after →
        graph.Leads (past ++ (walk.tracedVisit graph root).moments) after ∧
          after.stack = [] := by
  rw [Walk.tracedVisit]
  cases isMarked : walk.mark? root with
  | some mark =>
      refine ⟨trivial, ?_⟩
      rintro after ⟨⟩
      simpa using ⟨leads, isOver⟩
  | none =>
      obtain ⟨isSequel, continues⟩ :=
        isSequel_tracedRun (leads.root isOver isRoot isMarked)
      refine ⟨⟨⟨leads, isOver, isRoot, isMarked⟩, isSequel⟩, fun after ends => ?_⟩
      simpa using continues after ends

/-- All visits of a search follow on each other. -/
theorem isSequel_tracedVisits
    {roots : List Vertex}
    (leads : graph.Leads past walk)
    (isOver : walk.stack = [])
    (areRoots : ∀ root ∈ roots, root ∈ graph.roots) :
    graph.IsSequel past (graph.tracedVisits roots walk).moments := by
  induction roots generalizing past walk with
  | nil => trivial
  | cons root others ih =>
      rcases List.forall_mem_cons.1 areRoots with ⟨isRoot, othersAreRoots⟩
      obtain ⟨isSequel, continues⟩ := isSequel_tracedVisit leads isOver isRoot
      rw [tracedVisits]
      cases ends : (walk.tracedVisit graph root).ends with
      | error cycle => exact isSequel
      | ok after =>
          rcases continues after ends with ⟨afterLeads, afterOver⟩
          exact isSequel_append.2 ⟨isSequel, ih afterLeads afterOver othersAreRoots⟩

/-- Each moment of a search is due after those before it. -/
theorem isDue_of_trace_eq
    {moment : Moment Vertex} {future : List (Moment Vertex)}
    (split : graph.trace.moments = past ++ moment :: future) :
    graph.IsDue past moment := by
  have isSequel : graph.IsSequel [] graph.trace.moments :=
    isSequel_tracedVisits .start rfl fun _ => id
  rw [split] at isSequel
  exact (isSequel_append.1 isSequel).2.1

/-! ## The state at the start of a turn -/

/-- At the start of every turn that a search of a graph without dangling edges
takes, its walk is coherent, and when the next successor is in progress, its place on
the path is found and the cycle is reported from there. -/
theorem coherent_and_exists_start_of_turn
    (closed : graph.Closed)
    (isTurn : .turn walk ∈ graph.trace.moments) :
    walk.Coherent graph ∧
      ∀ vertex successor rest below,
        walk.stack = (vertex, successor :: rest) :: below →
        walk.mark? successor = some .inProgress →
        ∃ start, walk.path.reverse.idxOf? successor = some start ∧
          walk.turn graph = .cycle (walk.path.reverse.drop start ++ [successor]) := by
  rcases List.append_of_mem isTurn with ⟨past, future, split⟩
  have leads : graph.Leads past walk := isDue_of_trace_eq split
  have coherent := leads.arises.coherent closed
  exact ⟨coherent, fun vertex successor rest below => coherent.exists_turn_eq_cycle⟩

/-- The last turn of the search of `leadingIn`, which finds the cycle above the first
vertex of the path. -/
theorem leadingIn_last_turn_coherent :
    let walk : Walk Nat :=
      ⟨[(3, .inProgress), (4, .done), (4, .inProgress), (2, .inProgress), (1, .inProgress)],
        [3, 2, 1], [4], [(3, [2]), (2, []), (1, [])]⟩
    leadingIn.Closed ∧ .turn walk ∈ leadingIn.trace.moments ∧ walk.Coherent leadingIn ∧
      walk.path.reverse.idxOf? 2 = some 1 ∧ walk.turn leadingIn = .cycle [2, 3, 2] := by
  intro walk
  have closed : leadingIn.Closed := danglingEdge?_eq_none_iff.1 (by decide)
  have traced : leadingIn.tracedVisits [1, 2, 3] Walk.start = ⟨_, _⟩ :=
    tracedVisits_of_cycle <| Walk.tracedVisit_of_unmarked rfl <|
      Walk.tracedRun_of_next rfl <| Walk.tracedRun_of_next rfl <|
      Walk.tracedRun_of_next rfl <| Walk.tracedRun_of_next rfl <|
      Walk.tracedRun_of_cycle rfl
  have isSixth : leadingIn.trace.moments[5]? = some (.turn walk) := by
    show (leadingIn.tracedVisits [1, 2, 3] Walk.start).moments[5]? = _
    rw [traced]
    rfl
  have isTurn := List.mem_of_getElem? isSixth
  rcases coherent_and_exists_start_of_turn closed isTurn with ⟨coherent, finds⟩
  rcases finds 3 2 [] [(2, []), (1, [])] rfl rfl with ⟨start, found, turns⟩
  cases found
  exact ⟨closed, isTurn, coherent, rfl, turns⟩

end Graph

end TarnBuild
