import TarnBuild.Proofs.Parser.Basic

/-!
# Recording the levels of a run

Reading a construct or a type opens a level, which is closed when reading it
ends.  A recorder is a parser without a limit that notes the levels that it
opens, each with the lexemes ahead at that time and with the levels opened
inside it.  It knows neither a limit nor how many levels are open.

Still a recording decides what the parser does under every limit: the run goes
on as recorded until the first level beyond the limit would be opened, and fails
there.  Each way to put parsers together keeps this up, and parsers that open no
level have it.
-/

namespace TarnBuild

variable {Value Next : Type}

/-! ## Levels -/

/-- The levels that a run opens, each with the levels inside it and in front of
those that come after it. -/
inductive Levels where
  | nil
  | opened (ahead : List Lexeme) (inside after : Levels)
  deriving DecidableEq, Repr

/-- One level being opened. -/
structure Opening where
  /-- The number of levels that are open then, with the new one. -/
  count : Nat
  /-- The lexemes that are still to be read. -/
  ahead : List Lexeme
  deriving DecidableEq, Repr

namespace Levels

/-- The levels of one run followed by those of another. -/
def append : Levels → Levels → Levels
  | nil, others => others
  | opened ahead inside after, others => opened ahead inside (after.append others)

/-- The greatest number of levels that are open at once. -/
def height : Levels → Nat
  | nil => 0
  | opened _ inside after => max (inside.height + 1) after.height

/-- All levels in the order in which they are opened, where some are open before. -/
def openings (depth : Nat) : Levels → List Opening
  | nil => []
  | opened ahead inside after =>
      ⟨depth + 1, ahead⟩ :: (inside.openings (depth + 1) ++ after.openings depth)

/-- Two runs open their levels one after the other, at the same depth. -/
@[simp]
theorem openings_append (depth : Nat) (levels others : Levels) :
    (levels.append others).openings depth = levels.openings depth ++ others.openings depth := by
  induction levels with
  | nil => rfl
  | opened ahead inside after _ ih => simp [append, openings, ih]

/-- Each level is counted when it is opened, so the counts are bounded by the height. -/
theorem count_le_iff {depth most : Nat} (levels : Levels) (hasRoom : depth ≤ most) :
    (∀ opening ∈ levels.openings depth, opening.count ≤ most) ↔ depth + levels.height ≤ most := by
  induction levels generalizing depth with
  | nil => simpa [openings, height] using hasRoom
  | opened ahead inside after insideIh afterIh =>
      rw [openings, List.forall_mem_cons, List.forall_mem_append, afterIh hasRoom, height]
      show depth + 1 ≤ most ∧ _ ∧ _ ↔ _
      by_cases hasMore : depth + 1 ≤ most
      · rw [insideIh hasMore]
        omega
      · omega

/-- The first level that is opened beyond a limit. -/
def beyond? (limit : Option Nat) (depth : Nat) (levels : Levels) : Option Opening :=
  (levels.openings depth).find? fun opening => limit.any (· < opening.count)

/-- The second run comes to a level beyond the limit only if the first one does
not. -/
theorem beyond?_append (limit : Option Nat) (depth : Nat) (levels others : Levels) :
    (levels.append others).beyond? limit depth =
      (levels.beyond? limit depth).or (others.beyond? limit depth) := by
  rw [beyond?, openings_append, List.find?_append]
  rfl

/-- A level that is opened within the limit leaves the decision to those inside
it and those after it. -/
theorem beyond?_opened (limit : Option Nat) (depth : Nat) (ahead : List Lexeme)
    (inside after : Levels) :
    (opened ahead inside after).beyond? limit depth =
      if limit.any (· ≤ depth) then some ⟨depth + 1, ahead⟩
      else (inside.beyond? limit (depth + 1)).or (after.beyond? limit depth) := by
  rw [beyond?, openings, List.find?_cons, List.find?_append]
  simp only [Nat.lt_succ_iff]
  cases limit.any (· ≤ depth) <;> rfl

theorem beyond?_none (depth : Nat) (levels : Levels) : levels.beyond? none depth = none :=
  List.find?_eq_none.2 fun _ _ => Bool.false_ne_true

/-- No level is beyond the limit exactly if the highest one is not. -/
theorem beyond?_eq_none_iff {depth most : Nat} (levels : Levels) (hasRoom : depth ≤ most) :
    levels.beyond? (some most) depth = none ↔ depth + levels.height ≤ most := by
  rw [← levels.count_le_iff hasRoom, beyond?, List.find?_eq_none]
  simp

/-- Levels are opened one by one, so the first one beyond a limit is the next
one after the limit. -/
theorem count_of_beyond?
    {depth most : Nat} {levels : Levels} {opening : Opening}
    (hasRoom : depth ≤ most)
    (isFirst : levels.beyond? (some most) depth = some opening) :
    opening.count = most + 1 := by
  induction levels generalizing depth with
  | nil => cases isFirst
  | opened ahead inside after insideIh afterIh =>
      rw [beyond?_opened] at isFirst
      split at isFirst
      · next isFull =>
          have isFull : most ≤ depth := by simpa using isFull
          cases isFirst
          exact congrArg (· + 1) (Nat.le_antisymm hasRoom isFull)
      · next notFull =>
          have hasMore : depth < most := by simpa using notFull
          rcases Option.or_eq_some_iff.1 isFirst with isInside | ⟨_, isLater⟩
          · exact insideIh hasMore isInside
          · exact afterIh hasRoom isLater

/-- Before the first level beyond the limit all levels are within it. -/
theorem openings_of_beyond?
    {depth most : Nat} {levels : Levels} {opening : Opening}
    (isFirst : levels.beyond? (some most) depth = some opening) :
    ∃ before after, levels.openings depth = before ++ opening :: after ∧
      ∀ earlier ∈ before, earlier.count ≤ most := by
  rcases (List.find?_eq_some_iff_append.1 isFirst).2 with ⟨before, after, split, areWithin⟩
  refine ⟨before, after, split, fun earlier isBefore => ?_⟩
  simpa using areWithin earlier isBefore

end Levels

/-! ## Recordings -/

/-- How a parser without a limit ends, and the levels that it has opened. -/
structure Recording (Value : Type) where
  result : Except SourceError Value
  /-- The lexemes that have not been read. -/
  rest : List Lexeme
  levels : Levels

namespace Recording

/-- The recording of a run that opens no levels. -/
def ofOutcome (outcome : Outcome Value) : Recording Value :=
  ⟨outcome.result, outcome.cursor.rest, .nil⟩

/-- What the recorded parser does where some levels are open and there may be a limit. -/
def limited (context : ParseContext) (depth : Nat) (recording : Recording Value) :
    Outcome Value :=
  match recording.levels.beyond? context.nestingLimit depth with
  | some opening => Parser.fail .nestingTooDeep context ⟨opening.ahead, depth⟩
  | none =>
      match recording.result with
      | .ok value => .done value ⟨recording.rest, depth⟩
      | .error error => .failed error ⟨recording.rest, depth⟩

/-- A limit replaces the answer of a recording if a level is opened beyond it,
and otherwise leaves it as it is. -/
theorem result_limited (context : ParseContext) (depth : Nat) (recording : Recording Value) :
    (recording.limited context depth).result =
      match recording.levels.beyond? context.nestingLimit depth with
      | some opening =>
          .error ⟨.nestingTooDeep, Cursor.place ⟨opening.ahead, depth⟩ context.source⟩
      | none => recording.result := by
  unfold limited
  cases recording.levels.beyond? context.nestingLimit depth with
  | some opening => rfl
  | none => cases recording.result <;> rfl

end Recording

/-- A parser without a limit that notes the levels that it opens. -/
def Recorder (Value : Type) : Type :=
  List Char → List Lexeme → Recording Value

namespace Recorder

instance : Monad Recorder where
  pure value := fun _ rest => ⟨.ok value, rest, .nil⟩
  bind recorder next := fun source rest =>
    let first := recorder source rest
    match first.result with
    | .ok value =>
        let second := next value source first.rest
        { second with levels := first.levels.append second.levels }
    | .error error => ⟨.error error, first.rest, first.levels⟩

/-- Run a parser that opens no levels. -/
def flat (parser : Parser Value) : Recorder Value := fun source rest =>
  .ofOutcome (parser ⟨source, none⟩ ⟨rest, 0⟩)

/-- Run a recorder inside a new level. -/
def nested (recorder : Recorder Value) : Recorder Value := fun source rest =>
  let inside := recorder source rest
  { inside with levels := .opened rest inside.levels .nil }

/-- Give a recorder the number of lexemes that are still to be read. -/
def withRemaining (recorder : Nat → Recorder Value) : Recorder Value := fun source rest =>
  recorder rest.length source rest

end Recorder

/-- The recordings of a recorder decide all runs of a parser. -/
def Mirrors (recorder : Recorder Value) (parser : Parser Value) : Prop :=
  ∀ context rest depth,
    parser context ⟨rest, depth⟩ = (recorder context.source rest).limited context depth

/-! ## Parsers put together -/

/-- A value that is returned opens no level. -/
theorem mirrors_pure (value : Value) : Mirrors (pure value) (pure value) :=
  fun _ _ _ => rfl

/-- Under every limit the second recorder goes on where the first one ends, with
the levels of both in that order. -/
theorem Mirrors.bind
    {recorder : Recorder Value} {parser : Parser Value}
    {next : Value → Recorder Next} {parserNext : Value → Parser Next}
    (first : Mirrors recorder parser)
    (second : ∀ value, Mirrors (next value) (parserNext value)) :
    Mirrors (recorder >>= next) (parser >>= parserNext) := by
  intro context rest depth
  rw [Parser.bind_run, first context rest depth]
  show _ = Recording.limited context depth (match (recorder context.source rest).result with
    | .ok value => _
    | .error error => _)
  rcases recorder context.source rest with ⟨result, middle, levels⟩
  unfold Recording.limited
  cases result with
  | error error => cases levels.beyond? context.nestingLimit depth <;> rfl
  | ok value =>
      have goesOn := second value context middle depth
      unfold Recording.limited at goesOn
      dsimp only
      rw [Levels.beyond?_append]
      cases levels.beyond? context.nestingLimit depth with
      | some opening => rfl
      | none => exact goesOn

theorem mirrors_ite
    {condition : Bool} {recorder left : Recorder Value} {parser parserLeft : Parser Value}
    (taken : Mirrors recorder parser)
    (notTaken : Mirrors left parserLeft) :
    Mirrors (if condition = true then recorder else left)
      (if condition = true then parser else parserLeft) := by
  cases condition with
  | true => exact taken
  | false => exact notTaken

/-- A level that is opened is the first one beyond the limit, or else those inside it decide. -/
theorem Mirrors.nested
    {recorder : Recorder Value} {parser : Parser Value}
    (inner : Mirrors recorder parser) :
    Mirrors (.nested recorder) (.nested parser) := by
  intro context rest depth
  unfold Parser.nested
  rw [inner context rest (depth + 1)]
  show _ = Recording.limited context depth { recorder context.source rest with
    levels := .opened rest (recorder context.source rest).levels .nil }
  rcases recorder context.source rest with ⟨result, middle, levels⟩
  unfold Recording.limited
  dsimp only
  rw [Levels.beyond?_opened, show Levels.nil.beyond? _ _ = none from rfl, Option.or_none]
  cases context.nestingLimit.any (· ≤ depth) with
  | true => rfl
  | false =>
      cases levels.beyond? context.nestingLimit (depth + 1) with
      | some opening => rfl
      | none => cases result <;> rfl

/-- A recorder sees as many lexemes as its parser, so one bound is used for
both. -/
theorem mirrors_withRemaining
    {recorder : Nat → Recorder Value} {parser : Nat → Parser Value}
    (mirrors : ∀ bound, Mirrors (recorder bound) (parser bound)) :
    Mirrors (.withRemaining recorder) (.withRemaining parser) :=
  fun context rest depth => mirrors rest.length context rest depth

/-! ## Parsers that open no levels -/

/-- The limit and the levels that are open mean nothing to a parser. -/
def IsFlat (parser : Parser Value) : Prop :=
  ∀ context rest depth, parser context ⟨rest, depth⟩ =
    (parser ⟨context.source, none⟩ ⟨rest, 0⟩).mapCursor fun after => ⟨after.rest, depth⟩

/-- A parser that opens no level is its own recorder. -/
theorem IsFlat.mirrors {parser : Parser Value} (isFlat : IsFlat parser) :
    Mirrors (.flat parser) parser := by
  intro context rest depth
  rw [isFlat]
  show _ = (Recording.ofOutcome (parser ⟨context.source, none⟩ ⟨rest, 0⟩)).limited context depth
  cases parser ⟨context.source, none⟩ ⟨rest, 0⟩ <;> rfl

/-- A sequence is flat if its parts are: neither of them asks for the limit or for
the depth. -/
theorem IsFlat.bind
    {parser : Parser Value} {next : Value → Parser Next}
    (first : IsFlat parser)
    (second : ∀ value, IsFlat (next value)) :
    IsFlat (parser >>= next) := by
  intro context rest depth
  rw [Parser.bind_run, Parser.bind_run, first context rest depth]
  cases parser ⟨context.source, none⟩ ⟨rest, 0⟩ with
  | failed error after => rfl
  | done value after =>
      rcases after with ⟨middle, between⟩
      show next value context ⟨middle, depth⟩ =
        (next value ⟨context.source, none⟩ ⟨middle, between⟩).mapCursor _
      rw [second value context middle depth, second value ⟨context.source, none⟩ middle between]
      cases next value ⟨context.source, none⟩ ⟨middle, 0⟩ <;> rfl

theorem isFlat_pure (value : Value) : IsFlat (pure value) :=
  fun _ _ _ => rfl

theorem isFlat_ite
    {condition : Bool} {parser left : Parser Value}
    (taken : IsFlat parser)
    (notTaken : IsFlat left) :
    IsFlat (if condition = true then parser else left) := by
  cases condition with
  | true => exact taken
  | false => exact notTaken

theorem isFlat_fail (fault : SourceFault) : IsFlat (Parser.fail fault : Parser Value) :=
  fun _ _ _ => rfl

theorem isFlat_unexpected (expectation : Expectation) :
    IsFlat (Parser.unexpected expectation : Parser Value) :=
  fun _ _ _ => rfl

theorem isFlat_peek : IsFlat Parser.peek :=
  fun _ _ _ => rfl

theorem isFlat_advance : IsFlat Parser.advance :=
  fun _ _ _ => rfl

theorem isFlat_eat (token : Token) : IsFlat (Parser.eat token) := by
  refine isFlat_peek.bind fun found => ?_
  split
  · exact isFlat_advance.bind fun _ => isFlat_pure true
  · exact isFlat_pure false

theorem isFlat_discard_eat (token : Token) :
    IsFlat (discard (Parser.eat token) : Parser Unit) :=
  (isFlat_eat token).bind fun _ => isFlat_pure ()

theorem isFlat_expect (mark : Mark) (expectation : Expectation) :
    IsFlat (Parser.expect mark expectation) :=
  (isFlat_eat _).bind fun _ => isFlat_ite (isFlat_pure ()) (isFlat_unexpected expectation)

theorem isFlat_upperName (expectation : Expectation) :
    IsFlat (Parser.upperName expectation) := by
  refine isFlat_peek.bind fun found => ?_
  split
  · exact isFlat_advance.bind fun _ => isFlat_pure _
  · exact isFlat_unexpected expectation

theorem isFlat_lowerName (expectation : Expectation) :
    IsFlat (Parser.lowerName expectation) := by
  refine isFlat_peek.bind fun found => ?_
  split
  · exact isFlat_advance.bind fun _ => isFlat_pure _
  · exact isFlat_unexpected expectation

/-- The bound of a repetition has nothing to do with levels. -/
theorem isFlat_withRemaining
    {parser : Nat → Parser Value} (areFlat : ∀ bound, IsFlat (parser bound)) :
    IsFlat (Parser.withRemaining parser) :=
  fun context rest depth => areFlat rest.length context rest depth

section Lists

variable {item : Parser Value}

theorem isFlat_repeatAfter (token : Token) (isFlat : IsFlat item) (bound : Nat) :
    IsFlat (Parser.repeatAfter token item bound) := by
  induction bound with
  | zero => exact isFlat_pure []
  | succ bound ih =>
      refine (isFlat_eat token).bind fun _ => isFlat_ite ?_ (isFlat_pure [])
      exact isFlat.bind fun first => ih.bind fun others => isFlat_pure _

/-- A list is flat if its items are, as names are and types are not. -/
theorem isFlat_commaListUpTo
    (isFlat : IsFlat item) (close : Mark) (expectation : Expectation) (bound : Nat) :
    IsFlat (Parser.commaListUpTo item close expectation bound) := by
  induction bound with
  | zero =>
      refine isFlat.bind fun only => ?_
      exact (isFlat_expect close expectation).bind fun _ => isFlat_pure _
  | succ bound ih =>
      refine isFlat.bind fun first => (isFlat_eat _).bind fun _ => isFlat_ite ?_ ?_
      · exact ih.bind fun others => isFlat_pure _
      · exact (isFlat_expect close expectation).bind fun _ => isFlat_pure _

end Lists

end TarnBuild
