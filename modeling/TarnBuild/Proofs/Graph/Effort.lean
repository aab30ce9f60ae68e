import TarnBuild.Proofs.Graph.Trace

/-!
# What a search does at most once

A search enters a vertex when it meets it as a root or as a successor without a
mark, and then marks it for good.  It consumes the successors of a vertex while
the vertex is on the stack, and what the stack holds of them only becomes
shorter.  So the marks and the stack account for all that was entered and
consumed before, and nothing is entered or consumed twice.  Each visit ends,
because every turn makes less of what is unmarked, or else of the successors on
the stack, or else of the stack itself.
-/

namespace TarnBuild

variable {Vertex : Type} [DecidableEq Vertex]

/-! ## Places -/

/-- The number of places in the list of the successors of a vertex. -/
def Graph.outdegree (graph : Graph Vertex) (vertex : Vertex) : Nat :=
  ((graph.successors? vertex).getD []).length

namespace Walk

/-- The vertex that the next turn enters, if it enters one. -/
def entered? (walk : Walk Vertex) : Option Vertex :=
  match walk.stack with
  | (_, successor :: _) :: _ =>
      if walk.mark? successor = none then some successor else none
  | _ => none

/-- The place that the next turn consumes, if it consumes one: a vertex, and the
number of its successors that were consumed before. -/
def consumed? (graph : Graph Vertex) (walk : Walk Vertex) : Option (Vertex × Nat) :=
  match walk.stack with
  | (vertex, _ :: rest) :: _ => some (vertex, graph.outdegree vertex - (rest.length + 1))
  | _ => none

/-- A place lies behind a walk: its vertex is done, or is on the stack with fewer
successors left than there are from this place on. -/
def Spent (graph : Graph Vertex) (walk : Walk Vertex) (place : Vertex × Nat) : Prop :=
  walk.mark? place.1 = some .done ∨
    ∃ remaining, (place.1, remaining) ∈ walk.stack ∧
      place.2 + remaining.length < graph.outdegree place.1

variable {graph : Graph Vertex} {walk after : Walk Vertex} {vertex : Vertex}
  {place : Vertex × Nat}

theorem exists_stack_of_entered?
    (found : walk.entered? = some vertex) :
    ∃ top rest below, walk.stack = (top, vertex :: rest) :: below ∧
      walk.mark? vertex = none := by
  unfold entered? at found
  split at found
  · next top successor rest below stack =>
      rcases Option.ite_none_right_eq_some.1 found with ⟨isUnmarked, same⟩
      cases same
      exact ⟨top, rest, below, stack, isUnmarked⟩
  · cases found

/-- A place is consumed where its successor is the next one of the vertex on
top. -/
theorem exists_stack_of_consumed?
    (found : walk.consumed? graph = some place) :
    ∃ successor rest below, walk.stack = (place.1, successor :: rest) :: below ∧
      place.2 = graph.outdegree place.1 - (rest.length + 1) := by
  unfold consumed? at found
  split at found
  · next successor rest below stack =>
      cases found
      exact ⟨successor, rest, below, stack, rfl⟩
  · cases found

/-- A place that the next turn consumes does not lie behind the walk yet. -/
theorem CoherentBelow.not_spent
    (coherent : Coherent graph walk)
    (found : walk.consumed? graph = some place) :
    ¬ walk.Spent graph place := by
  rcases place with ⟨vertex, position⟩
  rcases exists_stack_of_consumed? found with ⟨successor, rest, below, stack, position_eq⟩
  have path := coherent.path_of_stack stack
  rintro (isDone | ⟨remaining, isOnStack, isBehind⟩)
  · have isInProgress : walk.mark? vertex = some .inProgress := by
      rw [coherent.inProgress_iff, path]
      exact List.mem_cons_self
    rw [isInProgress] at isDone
    cases isDone
  · -- The vertex is on the stack only once, so these are the successors left to it.
    have distinct := coherent.path_nodup
    rw [path, List.nodup_cons] at distinct
    rw [stack, List.mem_cons] at isOnStack
    rcases isOnStack with isTop | isBelow
    · cases isTop
      simp only [List.length_cons] at isBehind
      dsimp only at position_eq
      omega
    · exact distinct.1 (List.mem_map_of_mem isBelow)

/-- A turn that looks at a successor leaves the vertex on the stack with the others. -/
theorem Step.mem_stack
    {top successor : Vertex} {rest : List Vertex} {below : List (Vertex × List Vertex)}
    (step : walk.Step graph after)
    (stack : walk.stack = (top, successor :: rest) :: below) :
    (top, rest) ∈ after.stack := by
  rcases step.passes_or_enters stack with ⟨_, rfl⟩ | ⟨_, rfl⟩
  · exact List.mem_cons_self
  · exact List.mem_cons_of_mem _ List.mem_cons_self

/-- The place that a turn consumes lies behind the walk after it. -/
theorem CoherentBelow.spent_of_step
    (coherent : Coherent graph walk)
    (step : walk.Step graph after)
    (found : walk.consumed? graph = some place) :
    after.Spent graph place := by
  rcases place with ⟨vertex, position⟩
  rcases exists_stack_of_consumed? found with ⟨successor, rest, below, stack, position_eq⟩
  have consumed := coherent.consumed
  rw [stack] at consumed
  rcases consumed with ⟨⟨front, listed, _⟩, _⟩
  have isBehind : position + rest.length < graph.outdegree vertex := by
    dsimp only at position_eq
    simp only [Graph.outdegree, listed, Option.getD_some, List.length_append,
      List.length_cons] at position_eq ⊢
    omega
  exact .inr ⟨rest, step.mem_stack stack, isBehind⟩

/-- Successors that are left to the vertices on a stack only become fewer. -/
theorem Spent.of_stack
    {top successor : Vertex} {rest : List Vertex} {below : List (Vertex × List Vertex)}
    (spent : walk.Spent graph place)
    (stack : walk.stack = (top, successor :: rest) :: below) :
    ({ walk with stack := (top, rest) :: below } : Walk Vertex).Spent graph place := by
  rcases spent with isDone | ⟨remaining, isOnStack, isBehind⟩
  · exact .inl isDone
  · rw [stack, List.mem_cons] at isOnStack
    rcases isOnStack with isTop | isBelow
    · rcases Prod.mk.inj isTop with ⟨same, rfl⟩
      refine .inr ⟨rest, by simp [same], ?_⟩
      rw [List.length_cons] at isBehind
      omega
    · exact .inr ⟨remaining, List.mem_cons_of_mem _ isBelow, isBehind⟩

/-- A vertex that is entered has no mark, so no place of it lies behind the walk. -/
theorem Spent.enter
    (spent : walk.Spent graph place)
    (isUnmarked : walk.mark? vertex = none)
    (successors : List Vertex) :
    (walk.enter vertex successors).Spent graph place := by
  rcases spent with isDone | ⟨remaining, isOnStack, isBehind⟩
  · refine .inl ?_
    rw [mark?_enter, if_neg]
    · exact isDone
    · intro same
      rw [same, isUnmarked] at isDone
      cases isDone
  · exact .inr ⟨remaining, List.mem_cons_of_mem _ isOnStack, isBehind⟩

/-- What lies behind a walk stays behind it. -/
theorem Spent.step
    (spent : walk.Spent graph place)
    (step : walk.Step graph after) :
    after.Spent graph place := by
  cases step with
  | @leave top below stack =>
      by_cases isTop : place.1 = top
      · exact .inl (by rw [mark?_leave, if_pos isTop])
      · rcases spent with isDone | ⟨remaining, isOnStack, isBehind⟩
        · exact .inl (by rw [mark?_leave, if_neg isTop]; exact isDone)
        · refine .inr ⟨remaining, ?_, isBehind⟩
          rw [stack, List.mem_cons] at isOnStack
          exact isOnStack.resolve_left fun same => isTop (congrArg Prod.fst same)
  | pass stack isDone => exact spent.of_stack stack
  | enter stack isUnmarked => exact (spent.of_stack stack).enter isUnmarked _

/-- The vertex that a turn enters has a mark after it. -/
theorem Step.isSome_mark?_of_entered?
    (step : walk.Step graph after)
    (found : walk.entered? = some vertex) :
    (after.mark? vertex).isSome := by
  rcases exists_stack_of_entered? found with ⟨top, rest, below, stack, isUnmarked⟩
  rcases step.passes_or_enters stack with ⟨isDone, _⟩ | ⟨_, rfl⟩
  · rw [isUnmarked] at isDone
    cases isDone
  · rw [mark?_enter, if_pos rfl]
    rfl

end Walk

namespace Moment

/-- The vertex that is entered next. -/
def entered? : Moment Vertex → Option Vertex
  | root _ vertex => some vertex
  | turn walk => walk.entered?

/-- The place that is consumed next. -/
def consumed? (graph : Graph Vertex) : Moment Vertex → Option (Vertex × Nat)
  | root _ _ => none
  | turn walk => walk.consumed? graph

end Moment

/-! ## Accounts -/

section Concat

variable {Item Value : Type} {value? : Item → Option Value} {items : List Item} {item : Item}

theorem mem_filterMap_concat {value : Value} :
    value ∈ (items ++ [item]).filterMap value? ↔
      value ∈ items.filterMap value? ∨ value? item = some value := by
  simp

theorem nodup_filterMap_concat
    (distinct : (items.filterMap value?).Nodup)
    (isNew : ∀ value, value? item = some value → value ∉ items.filterMap value?) :
    ((items ++ [item]).filterMap value?).Nodup := by
  rw [List.filterMap_append]
  cases found : value? item with
  | none => simpa [found] using distinct
  | some value =>
      rw [List.filterMap_cons_some found, List.filterMap_nil]
      exact List.nodup_append_comm.1 (List.nodup_cons.2 ⟨isNew value found, distinct⟩)

end Concat

namespace Graph

variable {graph : Graph Vertex} {past : List (Moment Vertex)} {walk : Walk Vertex}
  {moment : Moment Vertex}

/-- The vertices that are entered at some moments. -/
def entered (moments : List (Moment Vertex)) : List Vertex :=
  moments.filterMap Moment.entered?

/-- The places that are consumed at some moments. -/
def consumed (graph : Graph Vertex) (moments : List (Moment Vertex)) : List (Vertex × Nat) :=
  moments.filterMap (Moment.consumed? graph)

/-- Nothing is entered or consumed twice. -/
structure Once (graph : Graph Vertex) (moments : List (Moment Vertex)) : Prop where
  entered : (entered moments).Nodup
  consumed : (graph.consumed moments).Nodup

/-- A walk accounts for what was entered and consumed before. -/
structure Accounts (graph : Graph Vertex) (past : List (Moment Vertex))
    (walk : Walk Vertex) : Prop where
  isMarked : ∀ vertex ∈ entered past, (walk.mark? vertex).isSome
  isSpent : ∀ place ∈ graph.consumed past, walk.Spent graph place
  once : graph.Once past

theorem IsDue.leads (isDue : graph.IsDue past moment) : graph.Leads past moment.walk := by
  cases moment with
  | root walk root => exact isDue.1
  | turn walk => exact isDue

/-- A moment that is due enters and consumes something new. -/
theorem Accounts.once_concat
    (closed : graph.Closed)
    (accounts : graph.Accounts past moment.walk)
    (isDue : graph.IsDue past moment) :
    graph.Once (past ++ [moment]) := by
  have coherent := isDue.leads.arises.coherent closed
  constructor
  · refine nodup_filterMap_concat accounts.once.entered fun vertex isEntered wasEntered => ?_
    have isMarked := accounts.isMarked vertex wasEntered
    have isUnmarked : moment.walk.mark? vertex = none := by
      cases moment with
      | root walk root =>
          cases isEntered
          exact isDue.2.2.2
      | turn walk =>
          rcases Walk.exists_stack_of_entered? isEntered with ⟨_, _, _, _, isUnmarked⟩
          exact isUnmarked
    rw [isUnmarked] at isMarked
    cases isMarked
  · refine nodup_filterMap_concat accounts.once.consumed fun place isConsumed wasConsumed => ?_
    cases moment with
    | root walk root => cases isConsumed
    | turn walk => exact coherent.not_spent isConsumed (accounts.isSpent place wasConsumed)

/-- A state after a moment accounts for it as well when it keeps what has a mark and
what lies behind, and adds to them what the moment enters and consumes. -/
theorem Accounts.concat
    (accounts : graph.Accounts past moment.walk)
    (once : graph.Once (past ++ [moment]))
    (keepsMarks : ∀ vertex, (moment.walk.mark? vertex).isSome → (walk.mark? vertex).isSome)
    (marks : ∀ vertex, moment.entered? = some vertex → (walk.mark? vertex).isSome)
    (keepsPlaces : ∀ place, moment.walk.Spent graph place → walk.Spent graph place)
    (spends : ∀ place, moment.consumed? graph = some place → walk.Spent graph place) :
    graph.Accounts (past ++ [moment]) walk := by
  refine ⟨fun vertex wasEntered => ?_, fun place wasConsumed => ?_, once⟩
  · rcases mem_filterMap_concat.1 wasEntered with before | now
    · exact keepsMarks vertex (accounts.isMarked vertex before)
    · exact marks vertex now
  · rcases mem_filterMap_concat.1 wasConsumed with before | now
    · exact keepsPlaces place (accounts.isSpent place before)
    · exact spends place now

/-- The state to which some moments lead accounts for them. -/
theorem Leads.accounts
    (closed : graph.Closed)
    (leads : graph.Leads past walk) :
    graph.Accounts past walk := by
  induction leads with
  | start => exact ⟨nofun, nofun, .nil, .nil⟩
  | @root past walk root leads isOver isRoot isUnmarked accounts =>
      have isDue : graph.IsDue past (.root walk root) := ⟨leads, isOver, isRoot, isUnmarked⟩
      apply Accounts.concat accounts (accounts.once_concat closed isDue)
      · exact fun vertex isMarked => Walk.isSome_mark?_enter isMarked _ _
      · intro vertex isEntered
        cases isEntered
        rw [Walk.mark?_enter, if_pos rfl]
        rfl
      · exact fun place spent => spent.enter isUnmarked _
      · intro place isConsumed
        cases isConsumed
  | @turn past walk after leads equation accounts =>
      have step := Walk.step_of_turn equation
      have coherent := leads.arises.coherent closed
      have isDue : graph.IsDue past (.turn walk) := leads
      apply Accounts.concat accounts (accounts.once_concat closed isDue)
      · exact fun vertex isMarked => step.isSome_mark? isMarked
      · exact fun vertex isEntered => step.isSome_mark?_of_entered? isEntered
      · exact fun place spent => spent.step step
      · exact fun place isConsumed => coherent.spent_of_step step isConsumed
  | @ended past walk leads isOver accounts =>
      have isDue : graph.IsDue past (.turn walk) := leads
      apply Accounts.concat accounts (accounts.once_concat closed isDue)
      · exact fun vertex isMarked => isMarked
      · intro vertex isEntered
        rcases Walk.exists_stack_of_entered? isEntered with ⟨_, _, _, stack, _⟩
        rw [isOver] at stack
        cases stack
      · exact fun place spent => spent
      · intro place isConsumed
        rcases Walk.exists_stack_of_consumed? isConsumed with ⟨_, _, _, stack, _⟩
        rw [isOver] at stack
        cases stack

/-! ## The end of a run -/

/-- Turns, one after the other, lead from one state of a walk to another. -/
def TurnsTo (graph : Graph Vertex) : Walk Vertex → Walk Vertex → Prop :=
  Relation.ReflTransGen fun walk after => walk.turn graph = .next after

/-- A run ends where turns lead to an empty stack or to a cycle. -/
theorem exists_turnsTo_run (graph : Graph Vertex) (walk : Walk Vertex) :
    ∃ last, graph.TurnsTo walk last ∧
      (last.turn graph = .over ∧ walk.run graph = .ok last ∨
        ∃ cycle, last.turn graph = .cycle cycle ∧ walk.run graph = .error cycle) := by
  fun_induction Walk.run graph walk with
  | case1 walk equation => exact ⟨walk, .refl, .inl ⟨equation, rfl⟩⟩
  | case2 walk cycle equation => exact ⟨walk, .refl, .inr ⟨cycle, equation, rfl⟩⟩
  | case3 walk after equation ih =>
      rcases ih with ⟨last, turnsTo, ends⟩
      exact ⟨last, .head equation turnsTo, ends⟩

/-- A search of a graph without dangling edges enters no vertex and consumes no
place twice. -/
theorem once_trace (closed : graph.Closed) : graph.Once graph.trace.moments := by
  rcases List.eq_nil_or_concat graph.trace.moments with isEmpty | ⟨past, last, split⟩
  · rw [isEmpty]
    exact ⟨.nil, .nil⟩
  · rw [List.concat_eq_append] at split
    have isDue := isDue_of_trace_eq split
    rw [split]
    exact (isDue.leads.accounts closed).once_concat closed isDue

/-- Every visit ends after some turns.  A whole search of a graph without dangling
edges enters no vertex and consumes no place twice.  Every turn makes less of what is
unmarked, or else of the successors on the stack that are still to be looked at, or else
of the stack. -/
theorem visits_end_and_nodup_trace
    (graph : Graph Vertex)
    (closed : graph.Closed) :
    (∀ walk : Walk Vertex, ∀ root, walk.mark? root = none →
      ∃ last, graph.TurnsTo (walk.enter root ((graph.successors? root).getD [])) last ∧
        (last.turn graph = .over ∧ walk.visit graph root = .ok last ∨
          ∃ cycle, last.turn graph = .cycle cycle ∧ walk.visit graph root = .error cycle)) ∧
    (entered graph.trace.moments).Nodup ∧
    (graph.consumed graph.trace.moments).Nodup ∧
    ∀ walk after : Walk Vertex, walk.turn graph = .next after →
      Prod.Lex (· < ·) (Prod.Lex (· < ·) (· < ·))
        (after.unmarked graph, after.unconsumed, after.stack.length)
        (walk.unmarked graph, walk.unconsumed, walk.stack.length) := by
  have once := once_trace closed
  refine ⟨fun walk root isUnmarked => ?_, once.entered, once.consumed,
    fun walk after equation => ?_⟩
  · simp only [Walk.visit, isUnmarked]
    exact graph.exists_turnsTo_run _
  · exact Walk.decreases_of_turn equation

/-- A vertex is met three times and entered once, and the two places with the same
successor are consumed one after the other. -/
theorem sharing_nodup_trace :
    sharing.Closed ∧
      entered sharing.trace.moments = [1, 2, 4, 3] ∧
      sharing.consumed sharing.trace.moments = [(1, 0), (2, 0), (2, 1), (1, 1), (3, 0)] ∧
      [1, 2, 4, 3].Nodup ∧ [(1, 0), (2, 0), (2, 1), (1, 1), (3, 0)].Nodup ∧
      (Walk.start : Walk Nat).mark? 1 = none ∧
      ∃ last, sharing.TurnsTo (Walk.start.enter 1 [2, 3]) last ∧
        (last.turn sharing = .over ∧ Walk.start.visit sharing 1 = .ok last ∨
          ∃ cycle, last.turn sharing = .cycle cycle ∧
            Walk.start.visit sharing 1 = .error cycle) := by
  have closed : sharing.Closed := danglingEdge?_eq_none_iff.1 (by decide)
  have traced : sharing.tracedVisits [1, 2, 3] Walk.start = ⟨_, _⟩ :=
    tracedVisits_of_next
        (Walk.tracedVisit_of_unmarked rfl <|
          Walk.tracedRun_of_next rfl <| Walk.tracedRun_of_next rfl <|
          Walk.tracedRun_of_next rfl <| Walk.tracedRun_of_next rfl <|
          Walk.tracedRun_of_next rfl <| Walk.tracedRun_of_next rfl <|
          Walk.tracedRun_of_next rfl <| Walk.tracedRun_of_next rfl <|
          Walk.tracedRun_of_next rfl <| Walk.tracedRun_of_over rfl) <|
      tracedVisits_of_next (Walk.tracedVisit_of_marked rfl) <|
      tracedVisits_of_next (Walk.tracedVisit_of_marked rfl) rfl
  have entered : entered sharing.trace.moments = [1, 2, 4, 3] := by
    show entered (sharing.tracedVisits [1, 2, 3] Walk.start).moments = _
    rw [traced]
    rfl
  have consumed : sharing.consumed sharing.trace.moments =
      [(1, 0), (2, 0), (2, 1), (1, 1), (3, 0)] := by
    show sharing.consumed (sharing.tracedVisits [1, 2, 3] Walk.start).moments = _
    rw [traced]
    rfl
  have isUnmarked : (Walk.start : Walk Nat).mark? 1 = none := rfl
  obtain ⟨visitsEnd, enteredOnce, consumedOnce, _⟩ := visits_end_and_nodup_trace sharing closed
  rw [entered] at enteredOnce
  rw [consumed] at consumedOnce
  exact ⟨closed, entered, consumed, enteredOnce, consumedOnce, isUnmarked,
    visitsEnd Walk.start 1 isUnmarked⟩

end Graph

end TarnBuild
