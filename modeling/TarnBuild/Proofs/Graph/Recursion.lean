import TarnBuild.Proofs.Graph.Order

/-!
# The recursive search

The search that textbooks describe gives each vertex one of three colours and
calls itself for every white successor of the vertex that it explores.  It is
written here as it stands there, with a limit on how deep its calls may nest.
That they never nest deeper than there are vertices is part of what is shown.

A walk does the same with a stack of its own.  The vertices on the stack are
the calls that have not returned yet, each with the successors that it has
still to look at.  To finish all these calls gives the same answer before and
after every turn of the walk, and when the walk ends there are none left.
-/

namespace TarnBuild

variable {Vertex : Type} [DecidableEq Vertex]

/-! ## Colours -/

/-- What a recursive search knows about a vertex. -/
inductive Colour where
  /-- Not met so far. -/
  | white
  /-- On the current path. -/
  | grey
  /-- Left, after all successors. -/
  | black
  deriving DecidableEq, Repr

/-- What a recursive search hands from call to call. -/
structure Colouring (Vertex : Type) where
  colour : Vertex → Colour
  /-- The grey vertices, the outermost call first. -/
  path : List Vertex
  /-- The black vertices in the order in which they were left. -/
  order : List Vertex

namespace Colouring

omit [DecidableEq Vertex] in
@[ext]
theorem ext
    {first second : Colouring Vertex}
    (colour : ∀ vertex, first.colour vertex = second.colour vertex)
    (path : first.path = second.path)
    (order : first.order = second.order) :
    first = second := by
  rcases first with ⟨firstColour, _, _⟩
  rcases second with ⟨secondColour, _, _⟩
  cases (funext colour : firstColour = secondColour)
  cases path
  cases order
  rfl

/-- All vertices are white. -/
def start : Colouring Vertex := ⟨fun _ => .white, [], []⟩

/-- Make a vertex grey, at the end of the path. -/
def enter (state : Colouring Vertex) (vertex : Vertex) : Colouring Vertex where
  colour other := if other = vertex then .grey else state.colour other
  path := state.path ++ [vertex]
  order := state.order

/-- Make the vertex at the end of the path black. -/
def leave (state : Colouring Vertex) (vertex : Vertex) : Colouring Vertex where
  colour other := if other = vertex then .black else state.colour other
  path := state.path.dropLast
  order := state.order ++ [vertex]

/-- The part of the path from a vertex on, closed by that vertex. -/
def cycleThrough (state : Colouring Vertex) (vertex : Vertex) : List Vertex :=
  state.path.dropWhile (· ≠ vertex) ++ [vertex]

end Colouring

/-! ## The search -/

/-- A computation that a cycle can stop, and that comes to nothing when its calls
nest too deep. -/
abbrev Recursion (Vertex : Type) : Type → Type := ExceptT (List Vertex) Option

/-- Explore a vertex that is white, and stop at one that is grey. -/
def Colouring.lookAt
    (explore : Colouring Vertex → Vertex → Recursion Vertex (Colouring Vertex))
    (state : Colouring Vertex) (vertex : Vertex) :
    Recursion Vertex (Colouring Vertex) :=
  match state.colour vertex with
  | .white => explore state vertex
  | .grey => throw (state.cycleThrough vertex)
  | .black => pure state

namespace Graph

/-- Enter a vertex, look at its successors one after the other, and leave it,
with calls that nest up to some depth. -/
def explore (graph : Graph Vertex) :
    Nat → Colouring Vertex → Vertex → Recursion Vertex (Colouring Vertex)
  | 0, _, _ => ExceptT.mk none
  | depth + 1, state, vertex => do
      let successors := (graph.successors? vertex).getD []
      let after ← successors.foldlM (Colouring.lookAt (graph.explore depth))
        (state.enter vertex)
      return after.leave vertex

/-- Explore every root that is still white when its turn comes. -/
def exploreRoots (graph : Graph Vertex) (depth : Nat) :
    Recursion Vertex (Colouring Vertex) :=
  graph.roots.foldlM
    (fun state root =>
      if state.colour root = .white then graph.explore depth state root else pure state)
    .start

/-- The answer of the recursive search, if its calls do not nest too deep: a
cycle, or the vertices as they were left, followed by those that are still
white. -/
def recursiveSearch (graph : Graph Vertex) (depth : Nat) : Option (Analysis Vertex) :=
  (graph.exploreRoots depth).run.map fun
    | .error cycle => .cyclic cycle
    | .ok state =>
        .acyclic (state.order ++ graph.vertices.filter fun vertex =>
          state.colour vertex = .white)

end Graph

/-! ## What a walk knows, as a colouring -/

namespace Walk

/-- The colour that a mark stands for. -/
def colourOf : Option Mark → Colour
  | none => .white
  | some .inProgress => .grey
  | some .done => .black

theorem colourOf_eq_white_iff {mark : Option Mark} :
    colourOf mark = .white ↔ mark = none := by
  rcases mark with _ | _ | _ <;> decide

/-- A walk without its stack. -/
def colouring (walk : Walk Vertex) : Colouring Vertex where
  colour vertex := colourOf (walk.mark? vertex)
  path := walk.path.reverse
  order := walk.finished.reverse

/-- Entering a vertex shows in the colouring as the beginning of a call. -/
theorem colouring_enter
    (walk : Walk Vertex) (vertex : Vertex) (successors : List Vertex) :
    (walk.enter vertex successors).colouring = walk.colouring.enter vertex := by
  ext other
  · simp only [colouring, Colouring.enter, mark?_enter]
    split <;> rfl
  · simp [colouring, Colouring.enter, enter]
  · rfl

/-- Leaving a vertex shows in the colouring as the end of its call. -/
theorem colouring_leave
    (walk : Walk Vertex) (vertex : Vertex) (below : List (Vertex × List Vertex)) :
    (walk.leave vertex below).colouring = walk.colouring.leave vertex := by
  ext other
  · simp only [colouring, Colouring.leave, mark?_leave]
    split <;> rfl
  · simp [colouring, Colouring.leave, leave]
  · simp [colouring, Colouring.leave, leave]

end Walk

namespace Graph

variable {graph : Graph Vertex} {depth : Nat} {state : Colouring Vertex} {vertex : Vertex}

/-! ## The calls on a stack -/

/-- Finish the calls on a stack, the innermost first: each looks at the
successors that are left to it, and then leaves its vertex.  As many calls
stand above a successor as there are on the stack. -/
def resume (graph : Graph Vertex) (depth : Nat) (state : Colouring Vertex) :
    List (Vertex × List Vertex) → Recursion Vertex (Colouring Vertex)
  | [] => pure state
  | (vertex, successors) :: below => do
      let explore := graph.explore (depth - (below.length + 1))
      let after ← successors.foldlM (Colouring.lookAt explore) state
      graph.resume depth (after.leave vertex) below

@[simp]
theorem resume_nil : graph.resume depth state [] = pure state := rfl

/-- The innermost call leaves its vertex when it has nothing more to look at. -/
@[simp]
theorem resume_cons_nil (below : List (Vertex × List Vertex)) :
    graph.resume depth state ((vertex, []) :: below) =
      graph.resume depth (state.leave vertex) below := by
  simp [resume]

/-- The innermost call looks at its next successor. -/
@[simp]
theorem resume_cons_cons
    (successor : Vertex) (rest : List Vertex) (below : List (Vertex × List Vertex)) :
    graph.resume depth state ((vertex, successor :: rest) :: below) =
      state.lookAt (graph.explore (depth - (below.length + 1))) successor >>= fun after =>
        graph.resume depth after ((vertex, rest) :: below) := by
  simp only [resume, List.foldlM_cons, bind_assoc]

/-! ## The turns of a walk -/

variable {walk after : Walk Vertex}

/-- To explore a vertex is to finish the call that has just entered it. -/
theorem explore_bind_resume
    {successors : List Vertex}
    (listed : graph.successors? vertex = some successors)
    (notTooDeep : walk.stack.length < depth) :
    (graph.explore (depth - walk.stack.length) walk.colouring vertex >>= fun state =>
        graph.resume depth state walk.stack) =
      graph.resume depth (walk.enter vertex successors).colouring
        (walk.enter vertex successors).stack := by
  have oneDeeper : depth - walk.stack.length = depth - (walk.stack.length + 1) + 1 := by omega
  rw [oneDeeper, explore, listed, Walk.colouring_enter, Walk.enter, resume]
  simp only [Option.getD_some, bind_assoc, pure_bind]

/-- There is room on the stack for all vertices without a mark. -/
def Fits (graph : Graph Vertex) (depth : Nat) (walk : Walk Vertex) : Prop :=
  walk.stack.length + walk.unmarked graph ≤ depth

/-- A vertex that is entered finds its room. -/
theorem Fits.enter
    {successors : List Vertex}
    (fits : graph.Fits depth walk)
    (isUnmarked : walk.mark? vertex = none)
    (listed : graph.successors? vertex = some successors) :
    graph.Fits depth (walk.enter vertex successors) ∧ walk.stack.length < depth := by
  have fewer : (walk.enter vertex successors).unmarked graph < walk.unmarked graph :=
    Walk.unmarked_cons_lt rfl (mem_vertices_of_successors? listed) isUnmarked
  have length : (walk.enter vertex successors).stack.length = walk.stack.length + 1 := rfl
  unfold Fits at fits ⊢
  omega

theorem Fits.leave
    {below : List (Vertex × List Vertex)}
    (fits : graph.Fits depth walk)
    (stack : walk.stack = (vertex, []) :: below) :
    graph.Fits depth (walk.leave vertex below) := by
  have fewer : (walk.leave vertex below).unmarked graph ≤ walk.unmarked graph :=
    Walk.unmarked_cons_le graph vertex .done rfl
  have length : (walk.leave vertex below).stack.length + 1 = walk.stack.length := by
    rw [stack]
    rfl
  unfold Fits at fits ⊢
  omega

/-- To consume a successor takes no room. -/
theorem Fits.rest
    {vertex successor : Vertex} {rest : List Vertex} {below : List (Vertex × List Vertex)}
    (fits : graph.Fits depth walk)
    (stack : walk.stack = (vertex, successor :: rest) :: below) :
    graph.Fits depth { walk with stack := (vertex, rest) :: below } := by
  unfold Fits at fits ⊢
  rwa [stack] at fits

/-- A turn does not change what the calls on the stack come to. -/
theorem Fits.step
    (closed : graph.Closed)
    (coherent : walk.Coherent graph)
    (fits : graph.Fits depth walk)
    (step : walk.Step graph after) :
    graph.Fits depth after ∧
      graph.resume depth after.colouring after.stack =
        graph.resume depth walk.colouring walk.stack := by
  cases step with
  | @leave vertex below stack =>
      refine ⟨fits.leave stack, ?_⟩
      rw [stack, resume_cons_nil, Walk.colouring_leave]
      rfl
  | @pass vertex successor rest below stack isDone =>
      have isBlack : walk.colouring.colour successor = .black := by
        simp [Walk.colouring, isDone, Walk.colourOf]
      refine ⟨fits.rest stack, ?_⟩
      rw [stack, resume_cons_cons, Colouring.lookAt, isBlack]
      simp only [pure_bind]
      rfl
  | @enter vertex successor rest below stack isUnmarked =>
      obtain ⟨successors, listed⟩ :=
        exists_successors? <| closed _ _ (coherent.dependsOn_of_stack stack)
      rcases (fits.rest stack).enter isUnmarked listed with ⟨entered, notTooDeep⟩
      have isWhite : walk.colouring.colour successor = .white :=
        Walk.colourOf_eq_white_iff.2 isUnmarked
      rw [listed, Option.getD_some]
      refine ⟨entered, ?_⟩
      -- The call that explores the successor comes on top of those on the stack.
      rw [← explore_bind_resume listed notTooDeep, stack, resume_cons_cons,
        Colouring.lookAt, isWhite]
      rfl

/-- A walk runs to what the calls on its stack come to. -/
theorem resume_eq_run
    (closed : graph.Closed)
    (coherent : walk.Coherent graph)
    (fits : graph.Fits depth walk) :
    graph.resume depth walk.colouring walk.stack =
      ExceptT.mk (some ((walk.run graph).map Walk.colouring)) := by
  fun_induction Walk.run graph walk with
  | case1 walk equation =>
      rw [Walk.stack_eq_nil_of_turn_over equation]
      rfl
  | case2 walk cycle equation =>
      rcases Walk.exists_of_turn_cycle equation with
        ⟨vertex, successor, rest, below, stack, isInProgress, rfl⟩
      have isGrey : walk.colouring.colour successor = .grey := by
        simp [Walk.colouring, isInProgress, Walk.colourOf]
      -- What is grey lies on the path, so both cycles start at the same place.
      have isOnPath := (coherent.inProgress_iff successor).1 isInProgress
      rw [stack, resume_cons_cons, Colouring.lookAt, isGrey,
        Walk.cycleThrough_eq_dropWhile isOnPath]
      rfl
  | case3 walk after equation ih =>
      have step := Walk.step_of_turn equation
      rcases fits.step closed coherent step with ⟨stillFits, same⟩
      rw [← same]
      exact ih (coherent.step closed step) stillFits

/-! ## From root to root -/

/-- A call for a white root does what the visit of the root does, if there may
be as many calls inside each other as there are vertices. -/
theorem explore_eq_visit
    {root : Vertex}
    (closed : graph.Closed)
    (deepEnough : graph.vertices.length ≤ depth)
    (arises : graph.Arises walk)
    (isOver : walk.stack = [])
    (isRoot : root ∈ graph.roots) :
    (if walk.colouring.colour root = .white then graph.explore depth walk.colouring root
      else pure walk.colouring) =
      ExceptT.mk (some ((walk.visit graph root).map Walk.colouring)) := by
  unfold Walk.visit
  cases isMarked : walk.mark? root with
  | some mark =>
      have notWhite : walk.colouring.colour root ≠ .white := by
        simp [Walk.colouring, Walk.colourOf_eq_white_iff, isMarked]
      rw [if_neg notWhite]
      rfl
  | none =>
      have isWhite : walk.colouring.colour root = .white :=
        Walk.colourOf_eq_white_iff.2 isMarked
      have fits : graph.Fits depth walk := by
        have unmarked : walk.unmarked graph ≤ graph.vertices.length := List.countP_le_length
        rw [Fits, isOver, List.length_nil]
        omega
      have coherent := (arises.root isOver isRoot isMarked).coherent closed
      rcases mem_roots.1 isRoot with ⟨_, successors, listed, _⟩
      rw [listed, Option.getD_some] at coherent ⊢
      rcases fits.enter isMarked listed with ⟨entered, notTooDeep⟩
      have ends := resume_eq_run closed coherent entered
      rw [← explore_bind_resume listed notTooDeep, isOver] at ends
      rw [if_pos isWhite, ← ends]
      simp

/-- The calls for some roots do what their visits do, one after the other. -/
theorem exploreEach_eq_visits
    {roots : List Vertex}
    (closed : graph.Closed)
    (deepEnough : graph.vertices.length ≤ depth)
    (arises : graph.Arises walk)
    (isOver : walk.stack = [])
    (areRoots : ∀ root ∈ roots, root ∈ graph.roots) :
    roots.foldlM
        (fun state root =>
          if state.colour root = .white then graph.explore depth state root else pure state)
        walk.colouring =
      ExceptT.mk (some ((roots.foldlM (Walk.visit graph) walk).map Walk.colouring)) := by
  induction roots generalizing walk with
  | nil => rfl
  | cons root others ih =>
      rcases List.forall_mem_cons.1 areRoots with ⟨isRoot, othersAreRoots⟩
      rw [List.foldlM_cons, List.foldlM_cons,
        explore_eq_visit closed deepEnough arises isOver isRoot]
      cases visited : walk.visit graph root with
      | error cycle => rfl
      | ok middle =>
          rcases (visit_of_arises arises isOver isRoot).1 middle visited with
            ⟨middleArises, middleOver, _⟩
          exact ih middleArises middleOver othersAreRoots

/-- In a graph without dangling edges the calls of the recursive search nest no
deeper than there are vertices, and the analysis gives the same answer. -/
theorem exists_analyze_and_recursiveSearch
    (graph : Graph Vertex)
    (closed : graph.Closed) :
    ∃ analysis, graph.analyze = .ok analysis ∧
      ∀ depth, graph.vertices.length ≤ depth → graph.recursiveSearch depth = some analysis := by
  refine ⟨graph.search, analyze_eq_ok_iff.2 ⟨closed, rfl⟩, fun depth deepEnough => ?_⟩
  have explored : graph.exploreRoots depth = ExceptT.mk
      (some ((graph.roots.foldlM (Walk.visit graph) Walk.start).map Walk.colouring)) :=
    exploreEach_eq_visits closed deepEnough .start rfl fun _ => id
  rw [recursiveSearch, explored, search]
  cases graph.roots.foldlM (Walk.visit graph) Walk.start with
  | error cycle => rfl
  | ok walk =>
      -- White are the vertices without a mark, so both add the same ones at the end.
      have unmet : (graph.vertices.filter fun vertex => walk.colouring.colour vertex = .white) =
          graph.vertices.filter fun vertex => (walk.mark? vertex).isNone := by
        refine List.filter_congr fun vertex _ => ?_
        rw [Bool.eq_iff_iff, decide_eq_true_eq, Option.isNone_iff_eq_none]
        exact Walk.colourOf_eq_white_iff
      simp only [ExceptT.run_mk, Except.map, Option.map_some, unmet,
        Walk.finished_foldl_finishIsolated graph.nodup_vertices, List.reverse_append,
        List.reverse_reverse]
      rfl

/-- Both searches report the cycle of `leadingIn` without the path that leads
into it. -/
theorem leadingIn_recursiveSearch :
    leadingIn.Closed ∧ leadingIn.analyze = .ok (.cyclic [2, 3, 2]) ∧
      leadingIn.recursiveSearch 4 = some (.cyclic [2, 3, 2]) := by
  have closed : leadingIn.Closed := danglingEdge?_eq_none_iff.1 (by decide)
  have answer : leadingIn.recursiveSearch 4 = some (.cyclic [2, 3, 2]) := by decide
  rcases exists_analyze_and_recursiveSearch leadingIn closed with ⟨analysis, analyzed, same⟩
  rw [same 4 (by decide)] at answer
  cases answer
  exact ⟨closed, analyzed, same 4 (by decide)⟩

end Graph

end TarnBuild
