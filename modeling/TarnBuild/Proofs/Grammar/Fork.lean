import TarnBuild.Proofs.Grammar.Resume

/-!
# Two runs on a common front

Two sources that start with the same lexemes and then go on in different ways
are read in the same way for as long as a parser stands in the common front.
So either the two runs end at the same lexeme of the front, with related values
or with the same error, or the first run has left the front behind.

A parser that is given the number of lexemes before it is given different numbers
in the two sources.  They make no difference, since both are large enough for
what the front still holds.  That is why the lexemes of the front are counted.
-/

namespace TarnBuild

/-- A parser that settles does not go back. -/
theorem Settles.length_rest_le {Value : Type} {parser : Parser Value} (settles : Settles parser)
    (context : ParseContext) (cursor : Cursor) :
    (parser context cursor).cursor.rest.length ≤ cursor.rest.length := by
  rcases settles context cursor with ⟨count, same⟩
  rw [same, List.length_drop]
  exact Nat.sub_le _ _

theorem Settles.length_le_of_done
    {Value : Type} {parser : Parser Value} {context : ParseContext} {before after : Cursor}
    {value : Value}
    (settles : Settles parser)
    (ends : parser context before = .done value after) :
    after.rest.length ≤ before.rest.length := by
  have isNotLonger := settles.length_rest_le context before
  rwa [ends] at isNotLonger

/-- Wherever a parser ends with a value, it has passed over a lexeme. -/
def Advances {Value : Type} (parser : Parser Value) : Prop :=
  ∀ context before value after, parser context before = .done value after →
    after.rest.length < before.rest.length

/-- Two ways to go on after some common lexemes, read under the same limit. -/
structure Fork where
  first : ParseContext
  second : ParseContext
  firstBranch : List Lexeme
  secondBranch : List Lexeme
  limit_eq : first.nestingLimit = second.nestingLimit

namespace Fork

variable {fork : Fork} {cursor other : Cursor}

/-! ## Cursors in the front -/

/-- Two cursors stand at the same lexeme of the common front, with as many
constructs and types open. -/
structure Level (fork : Fork) (cursor other : Cursor) : Prop where
  exists_front : ∃ lexeme ahead, cursor.rest = lexeme :: (ahead ++ fork.firstBranch) ∧
    other.rest = lexeme :: (ahead ++ fork.secondBranch)
  depth_eq : cursor.depth = other.depth

/-- A cursor of the first source has left the common front behind. -/
def Beyond (fork : Fork) (cursor : Cursor) : Prop :=
  cursor.rest.length ≤ fork.firstBranch.length

namespace Level

theorem start (fork : Fork) {front : List Lexeme} (nonempty : front ≠ []) (depth : Nat) :
    fork.Level ⟨front ++ fork.firstBranch, depth⟩ ⟨front ++ fork.secondBranch, depth⟩ := by
  rcases List.exists_cons_of_ne_nil nonempty with ⟨lexeme, ahead, rfl⟩
  exact ⟨⟨lexeme, ahead, rfl, rfl⟩, rfl⟩

theorem mapDepth (level : fork.Level cursor other) (change : Nat → Nat) :
    fork.Level { cursor with depth := change cursor.depth }
      { other with depth := change other.depth } :=
  ⟨level.exists_front, congrArg change level.depth_eq⟩

/-- The next token is one of the front, so it is the same on both sides. -/
theorem token?_eq (level : fork.Level cursor other) : cursor.token? = other.token? := by
  rcases level.exists_front with ⟨lexeme, ahead, first, second⟩
  rw [Cursor.token?, first, Cursor.token?, second]
  rfl

/-- The next lexeme has one place in both sources, so an error found there is
the same. -/
theorem place_eq (level : fork.Level cursor other) (source otherSource : List Char) :
    cursor.place source = other.place otherSource := by
  rcases level.exists_front with ⟨lexeme, ahead, first, second⟩
  rw [Cursor.place, first, Cursor.place, second]

/-- How many lexemes of the front are left, the next one included. -/
theorem exists_remaining (level : fork.Level cursor other) :
    ∃ remaining, 0 < remaining ∧
      cursor.rest.length = remaining + fork.firstBranch.length ∧
      other.rest.length = remaining + fork.secondBranch.length := by
  rcases level.exists_front with ⟨lexeme, ahead, first, second⟩
  refine ⟨ahead.length + 1, Nat.succ_pos _, ?_, ?_⟩
  · rw [first, List.length_cons, List.length_append]
    omega
  · rw [second, List.length_cons, List.length_append]
    omega

end Level

/-! ## Agreement -/

variable {Value Key Next NextKey : Type}

/-- Two outcomes are alike unless the first one is found beyond the front: they
have the same error, or values of which the same is kept. -/
inductive Ends (fork : Fork) (keep : Value → Key) : Outcome Value → Outcome Value → Prop where
  | beyond (outcome otherOutcome : Outcome Value) (isBeyond : fork.Beyond outcome.cursor) :
      Ends fork keep outcome otherOutcome
  | done (value otherValue : Value) (cursor other : Cursor)
      (isKept : keep value = keep otherValue) (level : fork.Level cursor other) :
      Ends fork keep (.done value cursor) (.done otherValue other)
  | failed (error : SourceError) (cursor other : Cursor) :
      Ends fork keep (.failed error cursor) (.failed error other)

/-- Started at the same lexeme of the front, with so many lexemes of it left at
most, two parsers end alike. -/
structure Agree (fork : Fork) (size : Nat) (keep : Value → Key)
    (parser otherParser : Parser Value) : Prop where
  settles : Settles parser
  ends : ∀ cursor other, fork.Level cursor other →
    cursor.rest.length ≤ size + fork.firstBranch.length →
    fork.Ends keep (parser fork.first cursor) (otherParser fork.second other)

variable {size smaller : Nat} {keep : Value → Key} {keepNext : Next → NextKey}
  {parser otherParser left otherLeft : Parser Value}
  {next otherNext : Value → Parser Next}

/-- No cursor stands in a front without lexemes. -/
theorem agree_zero (settles : Settles parser) : fork.Agree 0 keep parser otherParser where
  settles := settles
  ends cursor other level isShort := by
    rcases level.exists_remaining with ⟨remaining, isPos, length_eq, _⟩
    omega

/-- Parsers that end alike on a long front do so on a shorter one. -/
theorem Agree.mono (agree : fork.Agree size keep parser otherParser)
    (isSmaller : smaller ≤ size) : fork.Agree smaller keep parser otherParser where
  settles := agree.settles
  ends cursor other level isShort := agree.ends cursor other level (by omega)

theorem agree_pure {value otherValue : Value} (isKept : keep value = keep otherValue) :
    fork.Agree size keep (pure value) (pure otherValue) where
  settles := settles_pure value
  ends cursor other level _ := .done value otherValue cursor other isKept level

/-- A sequence ends alike if its second part does for as many lexemes as the
first part leaves in the front, which may depend on its value. -/
theorem Agree.bind_of_length_le
    (first : fork.Agree size keep parser otherParser) (remaining : Value → Nat)
    (leaves : ∀ cursor other value after, fork.Level cursor other →
      cursor.rest.length ≤ size + fork.firstBranch.length →
      parser fork.first cursor = .done value after →
      after.rest.length ≤ remaining value + fork.firstBranch.length)
    (second : ∀ value otherValue, keep value = keep otherValue →
      fork.Agree (remaining value) keepNext (next value) (otherNext otherValue)) :
    fork.Agree size keepNext (parser >>= next) (otherParser >>= otherNext) where
  settles := first.settles.bind fun value => (second value value rfl).settles
  ends cursor other level isShort := by
    have ends := first.ends cursor other level isShort
    have leaves := fun value after => leaves cursor other value after level isShort
    rw [Parser.bind_run, Parser.bind_run]
    generalize parser fork.first cursor = outcome at ends leaves ⊢
    generalize otherParser fork.second other = otherOutcome at ends ⊢
    cases ends with
    | beyond _ _ isBeyond =>
        -- What comes second goes further on only, since it settles.
        refine .beyond _ _ ?_
        cases outcome with
        | done value after =>
            exact ((second value value rfl).settles.length_rest_le _ _).trans isBeyond
        | failed error after => exact isBeyond
    | done value otherValue after otherAfter isKept afterLevel =>
        have isShorter := leaves value after rfl
        exact (second value otherValue isKept).ends after otherAfter afterLevel isShorter
    | failed error after otherAfter => exact .failed error after otherAfter

/-- What comes second has no more lexemes of the front than what comes first. -/
theorem Agree.bind
    (first : fork.Agree size keep parser otherParser)
    (second : ∀ value otherValue, keep value = keep otherValue →
      fork.Agree size keepNext (next value) (otherNext otherValue)) :
    fork.Agree size keepNext (parser >>= next) (otherParser >>= otherNext) := by
  refine first.bind_of_length_le (fun _ => size) ?_ second
  intro cursor other value after level isShort ends
  exact (first.settles.length_le_of_done ends).trans isShort

/-- After parsers with equal values it is enough to look at one value. -/
theorem Agree.bind_eq
    (first : fork.Agree size id parser otherParser)
    (second : ∀ value, fork.Agree size keepNext (next value) (otherNext value)) :
    fork.Agree size keepNext (parser >>= next) (otherParser >>= otherNext) := by
  refine first.bind ?_
  rintro value _ rfl
  exact second value

/-- What comes after a parser that passes over a lexeme has one lexeme less. -/
theorem Agree.bind_of_advances
    (first : fork.Agree (size + 1) keep parser otherParser)
    (advances : Advances parser)
    (second : ∀ value otherValue, keep value = keep otherValue →
      fork.Agree size keepNext (next value) (otherNext otherValue)) :
    fork.Agree (size + 1) keepNext (parser >>= next) (otherParser >>= otherNext) := by
  refine first.bind_of_length_le (fun _ => size) ?_ second
  intro cursor other value after level isShort ends
  have isShorter := advances fork.first cursor value after ends
  omega

theorem agree_ite {condition : Bool}
    (taken : fork.Agree size keep parser otherParser)
    (notTaken : fork.Agree size keep left otherLeft) :
    fork.Agree size keep (if condition = true then parser else left)
      (if condition = true then otherParser else otherLeft) := by
  cases condition with
  | true => exact taken
  | false => exact notTaken

/-! ## Small parsers -/

/-- A fault in the front is one error, its place included. -/
theorem Level.ends_fail (level : fork.Level cursor other) (fault : SourceFault) :
    fork.Ends keep (Parser.fail fault fork.first cursor)
      (Parser.fail fault fork.second other) := by
  unfold Parser.fail
  rw [level.place_eq fork.first.source fork.second.source]
  exact .failed _ cursor other

/-- The message of a fault names the next token, which is one of the front. -/
theorem Level.ends_unexpected (level : fork.Level cursor other) (expectation : Expectation) :
    fork.Ends keep (Parser.unexpected expectation fork.first cursor)
      (Parser.unexpected expectation fork.second other) := by
  unfold Parser.unexpected
  rw [level.token?_eq]
  exact level.ends_fail _

theorem agree_fail (fault : SourceFault) :
    fork.Agree size keep (Parser.fail fault) (Parser.fail fault) where
  settles := settles_fail fault
  ends _ _ level _ := level.ends_fail fault

theorem agree_unexpected (expectation : Expectation) :
    fork.Agree size keep (Parser.unexpected expectation) (Parser.unexpected expectation) where
  settles := settles_unexpected expectation
  ends _ _ level _ := level.ends_unexpected expectation

theorem agree_peek : fork.Agree size id Parser.peek Parser.peek where
  settles := settles_peek
  ends cursor other level _ := .done _ _ cursor other level.token?_eq level

/-- The first cursor leaves the front with the last lexeme of it. -/
theorem agree_advance : fork.Agree size id Parser.advance Parser.advance where
  settles := settles_advance
  ends cursor other level _ := by
    rcases level with ⟨⟨lexeme, ahead, first, second⟩, depth_eq⟩
    unfold Parser.advance
    rw [first, second, depth_eq]
    cases ahead with
    | nil => exact .beyond _ _ le_rfl
    | cons ahead others => exact .done () () _ _ rfl ⟨⟨ahead, others, rfl, rfl⟩, rfl⟩

/-- Wherever a cursor stands in the front, there is a lexeme to pass over. -/
theorem agree_advance_bind
    {after otherAfter : Parser Next}
    (agree : fork.Agree size keepNext after otherAfter) :
    fork.Agree (size + 1) keepNext (Parser.advance >>= fun _ => after)
      (Parser.advance >>= fun _ => otherAfter) := by
  refine agree_advance.bind_of_length_le (fun _ => size) ?_ fun _ _ _ => agree
  rintro cursor other _ _ level isShort ⟨⟩
  rw [List.length_tail]
  omega

/-- A token is eaten on both sides or on neither.  If it was the last one of the
front, the first run is beyond it. -/
theorem agree_eat (token : Token) :
    fork.Agree size id (Parser.eat token) (Parser.eat token) := by
  refine agree_peek.bind_eq fun found => ?_
  split
  · exact agree_advance.bind_eq fun _ => agree_pure rfl
  · exact agree_pure rfl

/-- What comes after a token that is eaten has one lexeme less. -/
theorem agree_eat_bind_ite (token : Token)
    (taken : fork.Agree size keep parser otherParser)
    (notTaken : fork.Agree (size + 1) keep left otherLeft) :
    fork.Agree (size + 1) keep
      (Parser.eat token >>= fun eaten => if eaten = true then parser else left)
      (Parser.eat token >>= fun eaten => if eaten = true then otherParser else otherLeft) := by
  refine (agree_eat token).bind_of_length_le
    (fun eaten => if eaten = true then size else size + 1) ?_ ?_
  · intro cursor other eaten after level isShort ends
    rcases Parser.eat_eq_done_iff.1 ends with ⟨rfl, place, passes⟩ | ⟨rfl, rfl, _⟩
    · have length_eq := congrArg List.length passes.rest_eq
      simp only [List.cons_append, List.nil_append, List.length_cons] at length_eq
      simp only [if_true]
      omega
    · exact isShort
  · rintro eaten _ rfl
    cases eaten with
    | true => exact taken
    | false => exact notTaken

theorem agree_discard_eat (token : Token) :
    fork.Agree size id (discard (Parser.eat token) : Parser Unit) (discard (Parser.eat token)) :=
  (agree_eat token).bind_eq fun _ => agree_pure rfl

/-- A mark in the front is there on both sides or on neither. -/
theorem agree_expect (mark : Mark) (expectation : Expectation) :
    fork.Agree size id (Parser.expect mark expectation) (Parser.expect mark expectation) :=
  (agree_eat _).bind_eq fun _ => agree_ite (agree_pure rfl) (agree_unexpected _)

theorem agree_upperName (expectation : Expectation) :
    fork.Agree size id (Parser.upperName expectation) (Parser.upperName expectation) := by
  refine agree_peek.bind_eq fun found => ?_
  split
  · exact agree_advance.bind_eq fun _ => agree_pure rfl
  · exact agree_unexpected _

theorem agree_lowerName (expectation : Expectation) :
    fork.Agree size id (Parser.lowerName expectation) (Parser.lowerName expectation) := by
  refine agree_peek.bind_eq fun found => ?_
  split
  · exact agree_advance.bind_eq fun _ => agree_pure rfl
  · exact agree_unexpected _

/-! ## Nesting and repetition -/

/-- The depths are equal and so are the limits, so a level that is refused on
one side is refused on both. -/
theorem Agree.nested (inner : fork.Agree size keep parser otherParser) :
    fork.Agree size keep (Parser.nested parser) (Parser.nested otherParser) where
  settles := inner.settles.nested
  ends cursor other level isShort := by
    unfold Parser.nested
    rw [fork.limit_eq, level.depth_eq]
    split
    · exact level.ends_fail _
    · have ends := inner.ends _ _ (level.mapDepth (· + 1)) isShort
      rw [level.depth_eq] at ends
      generalize parser fork.first _ = outcome at ends ⊢
      generalize otherParser fork.second _ = otherOutcome at ends ⊢
      cases ends with
      | beyond _ _ isBeyond =>
          refine .beyond _ _ ?_
          cases outcome <;> exact isBeyond
      | done value otherValue cursor other isKept level =>
          exact .done value otherValue _ _ isKept (level.mapDepth (· - 1))
      | failed error cursor other => exact .failed error _ _

/-- The numbers of lexemes before the two cursors may differ, but neither is smaller
than the number of those that are left in the front.  So as long as a lexeme is
left there, neither parser has come to the end of its bound. -/
theorem agree_withRemaining {parser otherParser : Nat → Parser Value}
    (settles : ∀ bound, Settles (parser bound))
    (step : ∀ smaller bound otherBound, smaller < size →
      fork.Agree smaller keep (parser bound) (otherParser otherBound) →
      fork.Agree (smaller + 1) keep (parser (bound + 1)) (otherParser (otherBound + 1))) :
    fork.Agree size keep (Parser.withRemaining parser) (Parser.withRemaining otherParser) where
  settles := settles_withRemaining settles
  ends cursor other level isShort := by
    -- The bounds exceed the lexemes left in the front by the lengths of the branches.
    have agree : ∀ smaller ≤ size, ∀ bound otherBound, fork.Agree smaller keep
        (parser (smaller + bound)) (otherParser (smaller + otherBound)) := by
      intro smaller isSmaller bound otherBound
      induction smaller with
      | zero => exact agree_zero (settles _)
      | succ smaller ih =>
          rw [Nat.succ_add, Nat.succ_add]
          exact step smaller _ _ isSmaller (ih (by omega))
    rcases level.exists_remaining with ⟨remaining, _, length_eq, otherLength_eq⟩
    unfold Parser.withRemaining
    rw [otherLength_eq]
    have agrees := agree remaining (by omega) fork.firstBranch.length fork.secondBranch.length
    exact length_eq ▸ agrees.ends cursor other level length_eq.le

variable {item otherItem : Parser Value}

/-- Every repetition eats a token of the front, which is what the bounds are
compared by. -/
theorem agree_repeatAfter (token : Token) (itemAgrees : fork.Agree size id item otherItem) :
    fork.Agree size id (Parser.withRemaining (Parser.repeatAfter token item))
      (Parser.withRemaining (Parser.repeatAfter token otherItem)) := by
  refine agree_withRemaining (settles_repeatAfter token itemAgrees.settles) ?_
  intro smaller bound otherBound isSmaller ih
  refine agree_eat_bind_ite token ?_ (agree_pure rfl)
  refine (itemAgrees.mono isSmaller.le).bind_eq fun first => ?_
  exact ih.bind_eq fun others => agree_pure rfl

/-- Every further item comes after a comma of the front, which is what the
bounds are compared by. -/
theorem agree_commaList
    (itemAgrees : fork.Agree size id item otherItem) (close : Mark) (expectation : Expectation) :
    fork.Agree size id (Parser.commaList item close expectation)
      (Parser.commaList otherItem close expectation) := by
  refine agree_withRemaining (settles_commaListUpTo itemAgrees.settles close expectation) ?_
  intro smaller bound otherBound isSmaller ih
  refine (itemAgrees.mono isSmaller).bind_eq fun first => agree_eat_bind_ite _ ?_ ?_
  · exact ih.bind_eq fun others => agree_pure rfl
  · exact (agree_expect close expectation).bind_eq fun _ => agree_pure rfl

theorem agree_parenList (itemAgrees : fork.Agree size id item otherItem) :
    fork.Agree size id (Parser.parenList item) (Parser.parenList otherItem) :=
  (agree_eat _).bind_eq fun _ =>
    agree_ite (agree_pure rfl) (agree_commaList itemAgrees _ _)

end Fork

end TarnBuild
