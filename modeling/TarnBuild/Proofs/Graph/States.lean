import TarnBuild.Graph.Analysis

/-!
# States of a search

A search starts without any mark.  It enters those of its roots that have no
mark, one after the other, and takes turns until the stack is empty again or a
cycle is found.  The states at the start of these turns are given here as an
inductive predicate, so that whatever holds at the start and is kept by
entering a root and by every turn holds in each of them.
-/

namespace TarnBuild

variable {Vertex : Type} [DecidableEq Vertex]

/-! ## What a turn can do -/

namespace Walk

/-- The three ways in which a turn leads to another one. -/
inductive Step (graph : Graph Vertex) (walk : Walk Vertex) : Walk Vertex → Prop where
  /-- The top vertex has no further successor. -/
  | leave {vertex : Vertex} {below : List (Vertex × List Vertex)}
      (stack : walk.stack = (vertex, []) :: below) :
      Step graph walk (walk.leave vertex below)
  /-- The next successor of the top vertex is done. -/
  | pass {vertex successor : Vertex} {rest : List Vertex}
      {below : List (Vertex × List Vertex)}
      (stack : walk.stack = (vertex, successor :: rest) :: below)
      (isDone : walk.mark? successor = some .done) :
      Step graph walk { walk with stack := (vertex, rest) :: below }
  /-- The next successor of the top vertex has no mark. -/
  | enter {vertex successor : Vertex} {rest : List Vertex}
      {below : List (Vertex × List Vertex)}
      (stack : walk.stack = (vertex, successor :: rest) :: below)
      (isUnmarked : walk.mark? successor = none) :
      Step graph walk
        (({ walk with stack := (vertex, rest) :: below } : Walk Vertex).enter
          successor ((graph.successors? successor).getD []))

/-- A turn that leads on is one of the steps. -/
theorem step_of_turn
    {graph : Graph Vertex} {walk after : Walk Vertex}
    (equation : walk.turn graph = .next after) :
    walk.Step graph after := by
  unfold turn at equation
  split at equation
  · cases equation
  · next vertex below stack =>
      cases equation
      exact .leave stack
  · next vertex successor rest below stack =>
      split at equation
      · next isDone =>
          cases equation
          exact .pass stack isDone
      · cases equation
      · next isUnmarked =>
          cases equation
          exact .enter stack isUnmarked

/-- A turn that looks at a successor passes over it or enters it. -/
theorem Step.passes_or_enters
    {graph : Graph Vertex} {walk after : Walk Vertex} {vertex successor : Vertex}
    {rest : List Vertex} {below : List (Vertex × List Vertex)}
    (step : walk.Step graph after)
    (stack : walk.stack = (vertex, successor :: rest) :: below) :
    let resumed : Walk Vertex := { walk with stack := (vertex, rest) :: below }
    walk.mark? successor = some .done ∧ after = resumed ∨
      walk.mark? successor = none ∧
        after = resumed.enter successor ((graph.successors? successor).getD []) := by
  cases step with
  | leave other =>
      rw [stack] at other
      cases other
  | pass other isDone =>
      rw [stack] at other
      cases other
      exact .inl ⟨isDone, rfl⟩
  | enter other isUnmarked =>
      rw [stack] at other
      cases other
      exact .inr ⟨isUnmarked, rfl⟩

/-- A turn is the last one only when the stack is empty. -/
theorem stack_eq_nil_of_turn_over
    {graph : Graph Vertex} {walk : Walk Vertex}
    (equation : walk.turn graph = .over) :
    walk.stack = [] := by
  unfold turn at equation
  split at equation
  · assumption
  · cases equation
  · split at equation <;> cases equation

/-- A turn finds a cycle only at a successor of the top vertex that is in
progress. -/
theorem exists_of_turn_cycle
    {graph : Graph Vertex} {walk : Walk Vertex} {cycle : List Vertex}
    (equation : walk.turn graph = .cycle cycle) :
    ∃ vertex successor rest below,
      walk.stack = (vertex, successor :: rest) :: below ∧
        walk.mark? successor = some .inProgress ∧
        cycle = walk.cycleThrough successor := by
  unfold turn at equation
  split at equation
  · cases equation
  · cases equation
  · next vertex successor rest below stack =>
      split at equation
      · cases equation
      · next isInProgress =>
          cases equation
          exact ⟨vertex, successor, rest, below, stack, isInProgress, rfl⟩
      · cases equation

/-! ## Marks -/

theorem mark?_enter
    (walk : Walk Vertex) (vertex other : Vertex) (successors : List Vertex) :
    (walk.enter vertex successors).mark? other =
      if other = vertex then some .inProgress else walk.mark? other := by
  by_cases same : other = vertex
  · simp [mark?, enter, same]
  · simp [mark?, enter, List.lookup_cons, same, beq_eq_false_iff_ne.2 same]

/-- Leaving a vertex changes its own mark only. -/
theorem mark?_leave
    (walk : Walk Vertex) (vertex other : Vertex)
    (below : List (Vertex × List Vertex)) :
    (walk.leave vertex below).mark? other =
      if other = vertex then some .done else walk.mark? other := by
  by_cases same : other = vertex
  · simp [mark?, leave, same]
  · simp [mark?, leave, List.lookup_cons, same, beq_eq_false_iff_ne.2 same]

/-- Entering a vertex takes no mark away. -/
theorem isSome_mark?_enter
    {walk : Walk Vertex} {other : Vertex}
    (isMarked : (walk.mark? other).isSome)
    (vertex : Vertex) (successors : List Vertex) :
    ((walk.enter vertex successors).mark? other).isSome := by
  rw [mark?_enter]
  split
  · rfl
  · exact isMarked

/-- No turn takes a mark away. -/
theorem Step.isSome_mark?
    {graph : Graph Vertex} {walk after : Walk Vertex} {vertex : Vertex}
    (step : walk.Step graph after)
    (isMarked : (walk.mark? vertex).isSome) :
    (after.mark? vertex).isSome := by
  cases step with
  | leave stack =>
      rw [mark?_leave]
      split
      · rfl
      · exact isMarked
  | pass stack isDone => exact isMarked
  | enter stack isUnmarked =>
      apply isSome_mark?_enter
      exact isMarked

/-! ## Runs and visits -/

section Run

variable {graph : Graph Vertex} {walk after : Walk Vertex}

theorem run_of_over (equation : walk.turn graph = .over) : walk.run graph = .ok walk := by
  rw [run]
  split <;> simp_all

theorem run_of_next (equation : walk.turn graph = .next after) :
    walk.run graph = after.run graph := by
  rw [run]
  split <;> simp_all

end Run

/-- What every turn keeps holds where a run ends. -/
theorem run_induction
    {graph : Graph Vertex}
    (kept : Walk Vertex → Prop)
    (keeps : ∀ walk after, kept walk → walk.turn graph = .next after → kept after)
    {walk : Walk Vertex}
    (holds : kept walk) :
    (∀ after, walk.run graph = .ok after → kept after ∧ after.stack = []) ∧
      ∀ cycle, walk.run graph = .error cycle →
        ∃ last, kept last ∧ last.turn graph = .cycle cycle := by
  fun_induction run graph walk with
  | case1 walk equation =>
      constructor
      · rintro after ⟨⟩
        exact ⟨holds, stack_eq_nil_of_turn_over equation⟩
      · rintro cycle ⟨⟩
  | case2 walk cycle equation =>
      constructor
      · rintro after ⟨⟩
      · rintro found ⟨⟩
        exact ⟨walk, holds, equation⟩
  | case3 walk after equation ih => exact ih (keeps walk after holds equation)

end Walk

namespace Graph

/-- The states at the start of the turns of a search. -/
inductive Arises (graph : Graph Vertex) : Walk Vertex → Prop where
  | start : Arises graph Walk.start
  /-- The stack is empty, and a root has no mark. -/
  | root {walk : Walk Vertex} {root : Vertex}
      (arises : Arises graph walk)
      (isOver : walk.stack = [])
      (isRoot : root ∈ graph.roots)
      (isUnmarked : walk.mark? root = none) :
      Arises graph (walk.enter root ((graph.successors? root).getD []))
  | turn {walk after : Walk Vertex}
      (arises : Arises graph walk)
      (equation : walk.turn graph = .next after) :
      Arises graph after

/-- A visit ends with a state in which the root is marked and no mark is lost,
or with a state in which a turn finds a cycle. -/
theorem visit_of_arises
    {graph : Graph Vertex} {walk : Walk Vertex} {root : Vertex}
    (arises : graph.Arises walk)
    (isOver : walk.stack = [])
    (isRoot : root ∈ graph.roots) :
    (∀ after, walk.visit graph root = .ok after →
        graph.Arises after ∧ after.stack = [] ∧ (after.mark? root).isSome ∧
          ∀ vertex, (walk.mark? vertex).isSome → (after.mark? vertex).isSome) ∧
      ∀ cycle, walk.visit graph root = .error cycle →
        ∃ last, graph.Arises last ∧ last.turn graph = .cycle cycle := by
  unfold Walk.visit
  cases isMarked : walk.mark? root with
  | some mark =>
      constructor
      · rintro after ⟨⟩
        exact ⟨arises, isOver, by simp [isMarked], fun _ => id⟩
      · rintro cycle ⟨⟩
  | none =>
      let entered := walk.enter root ((graph.successors? root).getD [])
      have enteredArises : graph.Arises entered :=
        .root arises isOver isRoot isMarked
      -- A run from here on meets only arising states and takes no mark away.
      obtain ⟨succeeds, fails⟩ := Walk.run_induction
        (fun state =>
          graph.Arises state ∧
            ∀ vertex, (entered.mark? vertex).isSome → (state.mark? vertex).isSome)
        (fun state after holds equation =>
          ⟨.turn holds.1 equation, fun vertex isMarked =>
            (Walk.step_of_turn equation).isSome_mark? (holds.2 vertex isMarked)⟩)
        ⟨enteredArises, fun _ => id⟩
      constructor
      · intro after equation
        rcases succeeds after equation with ⟨⟨afterArises, grows⟩, afterOver⟩
        refine ⟨afterArises, afterOver, grows root ?_, fun vertex wasMarked =>
          grows vertex ?_⟩
        · simp [entered, Walk.mark?_enter]
        · rw [Walk.mark?_enter]
          split
          · rfl
          · exact wasMarked
      · intro cycle equation
        rcases fails cycle equation with ⟨last, ⟨lastArises, _⟩, found⟩
        exact ⟨last, lastArises, found⟩

/-- Visits of several roots end with a state in which all these roots are
marked, or with a state in which a turn finds a cycle. -/
theorem visits_of_arises
    {graph : Graph Vertex} {roots : List Vertex} {walk : Walk Vertex}
    (areRoots : ∀ root ∈ roots, root ∈ graph.roots)
    (arises : graph.Arises walk)
    (isOver : walk.stack = []) :
    (∀ after, roots.foldlM (Walk.visit graph) walk = .ok after →
        graph.Arises after ∧ after.stack = [] ∧
          (∀ root ∈ roots, (after.mark? root).isSome) ∧
          ∀ vertex, (walk.mark? vertex).isSome → (after.mark? vertex).isSome) ∧
      ∀ cycle, roots.foldlM (Walk.visit graph) walk = .error cycle →
        ∃ last, graph.Arises last ∧ last.turn graph = .cycle cycle := by
  induction roots generalizing walk with
  | nil =>
      constructor
      · rintro after ⟨⟩
        exact ⟨arises, isOver, by simp, fun _ => id⟩
      · rintro cycle ⟨⟩
  | cons root others ih =>
      rcases visit_of_arises arises isOver (areRoots root List.mem_cons_self) with
        ⟨succeeds, fails⟩
      rw [List.foldlM_cons]
      cases equation : walk.visit graph root with
      | error cycle =>
          constructor
          · rintro after ⟨⟩
          · rintro found ⟨⟩
            exact fails cycle equation
      | ok middle =>
          rcases succeeds middle equation with ⟨middleArises, middleOver, rootMarked, grows⟩
          obtain ⟨othersSucceed, othersFail⟩ :=
            ih (fun other isOther => areRoots other (List.mem_cons_of_mem _ isOther))
              middleArises middleOver
          constructor
          · intro after afterEquation
            rcases othersSucceed after afterEquation with
              ⟨afterArises, afterOver, othersMarked, growsOn⟩
            refine ⟨afterArises, afterOver, fun other isMember => ?_,
              fun vertex isMarked => growsOn vertex (grows vertex isMarked)⟩
            rcases List.mem_cons.1 isMember with rfl | isOther
            · exact growsOn other rootMarked
            · exact othersMarked other isOther
          · intro cycle cycleEquation
            exact othersFail cycle cycleEquation

/-- A search ends with a state that arises in it: one in which the stack is
empty and all roots are marked, or one in which a turn finds a cycle. -/
theorem search_cases (graph : Graph Vertex) :
    (∃ walk, graph.Arises walk ∧ walk.stack = [] ∧
        (∀ root ∈ graph.roots, (walk.mark? root).isSome) ∧
        graph.search =
          .acyclic (graph.vertices.foldl Walk.finishIsolated walk).finished.reverse) ∨
      ∃ walk cycle, graph.Arises walk ∧ walk.turn graph = .cycle cycle ∧
        graph.search = .cyclic cycle := by
  have started : graph.Arises Walk.start := .start
  rcases visits_of_arises (fun _ => id) started rfl with ⟨succeeds, fails⟩
  unfold search
  cases equation : graph.roots.foldlM (Walk.visit graph) Walk.start with
  | ok walk =>
      rcases succeeds walk equation with ⟨arises, isOver, rootsMarked, _⟩
      exact .inl ⟨walk, arises, isOver, rootsMarked, rfl⟩
  | error cycle =>
      rcases fails cycle equation with ⟨walk, arises, found⟩
      exact .inr ⟨walk, cycle, arises, found, rfl⟩

end Graph

end TarnBuild
