import TarnBuild.Proofs.Parser.Basic

/-!
# Two runs on the same tokens

A parser decides by tokens alone.  The places of lexemes only show up in
errors, and the text of a source only in what is kept of its expressions.  So
a parser that reads two sources with the same tokens ends in both at the same
index, either with related values or with the same fault.

Each way to put parsers together keeps this agreement, and the small parsers
have it.
-/

namespace TarnBuild

/-- Two sources with the same tokens and the same nesting limit. -/
structure Twins where
  first : ParseContext
  second : ParseContext
  firstLexemes : List Lexeme
  secondLexemes : List Lexeme
  limit_eq : first.nestingLimit = second.nestingLimit
  tokens_eq : firstLexemes.map Lexeme.token = secondLexemes.map Lexeme.token

namespace Twins

variable {twins : Twins} {cursor other : Cursor}

/-! ## Cursors at one index -/

/-- Two cursors stand at the same index of the two sources, with as many
constructs and types open. -/
structure Level (twins : Twins) (cursor other : Cursor) : Prop where
  exists_index : ∃ index, cursor.rest = twins.firstLexemes.drop index ∧
    other.rest = twins.secondLexemes.drop index
  depth_eq : cursor.depth = other.depth

namespace Level

theorem start (twins : Twins) (depth : Nat) :
    twins.Level ⟨twins.firstLexemes, depth⟩ ⟨twins.secondLexemes, depth⟩ :=
  ⟨⟨0, rfl, rfl⟩, rfl⟩

/-- Further on by some lexemes the cursors are level again, at any depth. -/
theorem drop (level : twins.Level cursor other) (count depth : Nat) :
    twins.Level ⟨cursor.rest.drop count, depth⟩ ⟨other.rest.drop count, depth⟩ := by
  rcases level.exists_index with ⟨index, first, second⟩
  exact ⟨⟨index + count, by simp [first], by simp [second]⟩, rfl⟩

/-- A level that is opened or closed on both sides leaves the cursors level. -/
theorem mapDepth (level : twins.Level cursor other) (change : Nat → Nat) :
    twins.Level { cursor with depth := change cursor.depth }
      { other with depth := change other.depth } :=
  ⟨level.exists_index, congrArg change level.depth_eq⟩

/-- What is left to read has the same tokens on both sides. -/
theorem tokens_eq (level : twins.Level cursor other) :
    cursor.rest.map Lexeme.token = other.rest.map Lexeme.token := by
  rcases level.exists_index with ⟨index, first, second⟩
  rw [first, second, List.map_drop, List.map_drop, twins.tokens_eq]

theorem length_eq (level : twins.Level cursor other) :
    cursor.rest.length = other.rest.length := by
  simpa using congrArg List.length level.tokens_eq

/-- The next token is the same on both sides, or neither side has one. -/
theorem token?_eq (level : twins.Level cursor other) : cursor.token? = other.token? := by
  simpa [Cursor.token?] using congrArg List.head? level.tokens_eq

end Level

/-! ## Agreement -/

variable {Value Other Next OtherNext : Type}

/-- Two outcomes tell the sources apart by values that are related and by
places with the same index only. -/
inductive Ends (twins : Twins) (related : Value → Other → Prop) :
    Outcome Value → Outcome Other → Prop where
  | done (value : Value) (otherValue : Other) (cursor other : Cursor)
      (isRelated : related value otherValue) (level : twins.Level cursor other) :
      Ends twins related (.done value cursor) (.done otherValue other)
  | failed (fault : SourceFault) (cursor other : Cursor)
      (level : twins.Level cursor other) :
      Ends twins related
        (.failed ⟨fault, cursor.place twins.first.source⟩ cursor)
        (.failed ⟨fault, other.place twins.second.source⟩ other)

/-- The error of the first run has the place of the cursor at which it stops. -/
theorem Ends.span_eq
    {related : Value → Other → Prop} {error : SourceError} {after : Cursor}
    {otherOutcome : Outcome Other}
    (ends : twins.Ends related (.failed error after) otherOutcome) :
    error.span = after.place twins.first.source := by
  cases ends
  rfl

/-- Started at the same index, the two parsers end at the same index. -/
def Agree (twins : Twins) (related : Value → Other → Prop)
    (parser : Parser Value) (otherParser : Parser Other) : Prop :=
  ∀ cursor other, twins.Level cursor other →
    twins.Ends related (parser twins.first cursor) (otherParser twins.second other)

variable {related : Value → Other → Prop} {relatedNext : Next → OtherNext → Prop}

theorem agree_pure {value : Value} {otherValue : Other} (isRelated : related value otherValue) :
    twins.Agree related (pure value) (pure otherValue) :=
  fun cursor other level => .done value otherValue cursor other isRelated level

/-- What comes second has to agree only for values that the first parsers may
give. -/
theorem Agree.bind
    {parser : Parser Value} {otherParser : Parser Other}
    {next : Value → Parser Next} {otherNext : Other → Parser OtherNext}
    (first : twins.Agree related parser otherParser)
    (second : ∀ value otherValue, related value otherValue →
      twins.Agree relatedNext (next value) (otherNext otherValue)) :
    twins.Agree relatedNext (parser >>= next) (otherParser >>= otherNext) := by
  intro cursor other level
  rw [Parser.bind_run, Parser.bind_run]
  have ends := first cursor other level
  generalize parser twins.first cursor = outcome at ends ⊢
  generalize otherParser twins.second other = otherOutcome at ends ⊢
  cases ends with
  | done value otherValue cursor other isRelated level =>
      exact second value otherValue isRelated cursor other level
  | failed fault cursor other level => exact .failed fault cursor other level

/-- After parsers with equal values it is enough to look at one value. -/
theorem Agree.bind_eq
    {parser otherParser : Parser Value}
    {next : Value → Parser Next} {otherNext : Value → Parser OtherNext}
    (first : twins.Agree Eq parser otherParser)
    (second : ∀ value, twins.Agree relatedNext (next value) (otherNext value)) :
    twins.Agree relatedNext (parser >>= next) (otherParser >>= otherNext) := by
  refine first.bind ?_
  rintro value _ rfl
  exact second value

theorem agree_ite
    {condition : Bool} {parser : Parser Value} {otherParser : Parser Other}
    {left : Parser Value} {otherLeft : Parser Other}
    (taken : twins.Agree related parser otherParser)
    (notTaken : twins.Agree related left otherLeft) :
    twins.Agree related (if condition = true then parser else left)
      (if condition = true then otherParser else otherLeft) := by
  cases condition with
  | true => exact taken
  | false => exact notTaken

/-! ## Small parsers -/

/-- One fault is found at the two places of one index. -/
theorem agree_fail (fault : SourceFault) :
    twins.Agree related (Parser.fail fault) (Parser.fail fault) :=
  fun cursor other level => .failed fault cursor other level

/-- The message of a fault names the next token, which is the same on both
sides. -/
theorem agree_unexpected (expectation : Expectation) :
    twins.Agree related (Parser.unexpected expectation) (Parser.unexpected expectation) := by
  intro cursor other level
  unfold Parser.unexpected
  rw [level.token?_eq]
  exact agree_fail _ cursor other level

theorem agree_peek : twins.Agree Eq Parser.peek Parser.peek :=
  fun cursor other level => .done _ _ cursor other level.token?_eq level

/-- A lexeme that is passed over is passed over on both sides. -/
theorem agree_advance : twins.Agree Eq Parser.advance Parser.advance := by
  intro cursor other level
  have further := level.drop 1 cursor.depth
  rw [List.drop_one, List.drop_one] at further
  exact .done () () _ _ rfl ⟨further.exists_index, level.depth_eq⟩

/-- A token is eaten on both sides or on neither. -/
theorem agree_eat (token : Token) :
    twins.Agree Eq (Parser.eat token) (Parser.eat token) := by
  refine agree_peek.bind_eq fun found => ?_
  split
  · exact agree_advance.bind_eq fun _ => agree_pure rfl
  · exact agree_pure rfl

theorem agree_discard_eat (token : Token) :
    twins.Agree Eq (discard (Parser.eat token) : Parser Unit) (discard (Parser.eat token)) :=
  (agree_eat token).bind_eq fun _ => agree_pure rfl

theorem agree_expect (mark : Mark) (expectation : Expectation) :
    twins.Agree Eq (Parser.expect mark expectation) (Parser.expect mark expectation) :=
  (agree_eat _).bind_eq fun _ => agree_ite (agree_pure rfl) (agree_unexpected _)

theorem agree_upperName (expectation : Expectation) :
    twins.Agree Eq (Parser.upperName expectation) (Parser.upperName expectation) := by
  refine agree_peek.bind_eq fun found => ?_
  split
  · exact agree_advance.bind_eq fun _ => agree_pure rfl
  · exact agree_unexpected _

theorem agree_lowerName (expectation : Expectation) :
    twins.Agree Eq (Parser.lowerName expectation) (Parser.lowerName expectation) := by
  refine agree_peek.bind_eq fun found => ?_
  split
  · exact agree_advance.bind_eq fun _ => agree_pure rfl
  · exact agree_unexpected _

/-! ## Nesting and repetition -/

/-- The depths are equal and so are the limits, so a level that is refused on
one side is refused on both. -/
theorem Agree.nested {parser : Parser Value} {otherParser : Parser Other}
    (inner : twins.Agree related parser otherParser) :
    twins.Agree related (Parser.nested parser) (Parser.nested otherParser) := by
  intro cursor other level
  unfold Parser.nested
  rw [twins.limit_eq, level.depth_eq]
  split
  · exact agree_fail _ cursor other level
  · have ends := inner _ _ (level.mapDepth (· + 1))
    rw [level.depth_eq] at ends
    generalize parser twins.first _ = outcome at ends ⊢
    generalize otherParser twins.second _ = otherOutcome at ends ⊢
    cases ends with
    | done value otherValue cursor other isRelated level =>
        exact .done value otherValue _ _ isRelated (level.mapDepth (· - 1))
    | failed fault cursor other level =>
        exact .failed fault _ _ (level.mapDepth (· - 1))

/-- Equally many lexemes are left on both sides, so one bound is used for both. -/
theorem agree_withRemaining {parser : Nat → Parser Value} {otherParser : Nat → Parser Other}
    (agree : ∀ bound, twins.Agree related (parser bound) (otherParser bound)) :
    twins.Agree related (Parser.withRemaining parser) (Parser.withRemaining otherParser) := by
  intro cursor other level
  unfold Parser.withRemaining
  rw [level.length_eq]
  exact agree _ cursor other level

variable {item : Parser Value}

theorem agree_repeatAfter
    (token : Token) (itemAgrees : twins.Agree Eq item item) (bound : Nat) :
    twins.Agree Eq (Parser.repeatAfter token item bound)
      (Parser.repeatAfter token item bound) := by
  induction bound with
  | zero => exact agree_pure rfl
  | succ bound ih =>
      refine (agree_eat token).bind_eq fun _ => agree_ite ?_ (agree_pure rfl)
      refine itemAgrees.bind_eq fun first => ?_
      exact ih.bind_eq fun others => agree_pure rfl

/-- The items of a list are the same on both sides, by induction on the bound. -/
theorem agree_commaListUpTo
    (itemAgrees : twins.Agree Eq item item) (close : Mark) (expectation : Expectation)
    (bound : Nat) :
    twins.Agree Eq (Parser.commaListUpTo item close expectation bound)
      (Parser.commaListUpTo item close expectation bound) := by
  induction bound with
  | zero =>
      refine itemAgrees.bind_eq fun only => ?_
      exact (agree_expect close expectation).bind_eq fun _ => agree_pure rfl
  | succ bound ih =>
      refine itemAgrees.bind_eq fun first => ?_
      refine (agree_eat _).bind_eq fun _ => agree_ite ?_ ?_
      · exact ih.bind_eq fun others => agree_pure rfl
      · exact (agree_expect close expectation).bind_eq fun _ => agree_pure rfl

theorem agree_commaList
    (itemAgrees : twins.Agree Eq item item) (close : Mark) (expectation : Expectation) :
    twins.Agree Eq (Parser.commaList item close expectation)
      (Parser.commaList item close expectation) :=
  agree_withRemaining (agree_commaListUpTo itemAgrees close expectation)

theorem agree_parenList (itemAgrees : twins.Agree Eq item item) :
    twins.Agree Eq (Parser.parenList item) (Parser.parenList item) :=
  (agree_eat _).bind_eq fun _ =>
    agree_ite (agree_pure rfl) (agree_commaList itemAgrees _ _)

end Twins

end TarnBuild
