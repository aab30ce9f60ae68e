import TarnBuild.Parser.Construct

/-!
# What parsers pass over

A parser that ends with a value has passed over some lexemes and has returned
to the depth at which it started.  How deep it went in between is bounded by
the room that the nesting limit leaves at that depth.  The small parsers are
described here by the lexemes that they pass over.
-/

namespace TarnBuild

open Text (Span)

/-! ## Room below the nesting limit -/

/-- As many constructs and types as a height says may be opened at a depth. -/
def ParseContext.HasRoom (context : ParseContext) (depth height : Nat) : Prop :=
  ∀ limit ∈ context.nestingLimit, height ≤ limit - depth

namespace ParseContext

variable {context : ParseContext} {depth first second height : Nat}

@[simp]
theorem hasRoom_zero : context.HasRoom depth 0 :=
  fun _ _ => Nat.zero_le _

@[simp]
theorem hasRoom_max :
    context.HasRoom depth (max first second) ↔
      context.HasRoom depth first ∧ context.HasRoom depth second := by
  simp only [HasRoom, Nat.max_le]
  constructor
  · intro both
    exact ⟨fun limit isLimit => (both limit isLimit).1,
      fun limit isLimit => (both limit isLimit).2⟩
  · rintro ⟨firstFits, secondFits⟩ limit isLimit
    exact ⟨firstFits limit isLimit, secondFits limit isLimit⟩

/-- One more level fits when the limit is not reached and the rest fits below
it. -/
theorem hasRoom_succ :
    context.HasRoom depth (height + 1) ↔
      ¬ context.nestingLimit.any (· ≤ depth) ∧ context.HasRoom (depth + 1) height := by
  cases equation : context.nestingLimit with
  | none => simp [HasRoom, equation]
  | some limit =>
      simp only [HasRoom, equation, Option.mem_some_iff, forall_eq', Option.any_some,
        decide_eq_true_eq]
      omega

end ParseContext

/-! ## Passing over lexemes -/

/-- From one cursor to another some lexemes are passed over, with so many
constructs and types open at once on the way. -/
structure Passes (context : ParseContext) (before : Cursor) (lexemes : List Lexeme)
    (height : Nat) (after : Cursor) : Prop where
  rest_eq : before.rest = lexemes ++ after.rest
  depth_eq : after.depth = before.depth
  room : context.HasRoom before.depth height

namespace Passes

variable {context : ParseContext} {before middle after : Cursor}
  {lexemes others : List Lexeme} {height other : Nat}

theorem refl (context : ParseContext) (cursor : Cursor) :
    Passes context cursor [] 0 cursor :=
  ⟨rfl, rfl, by simp⟩

theorem append
    (first : Passes context before lexemes height middle)
    (second : Passes context middle others other after) :
    Passes context before (lexemes ++ others) (max height other) after where
  rest_eq := by rw [first.rest_eq, second.rest_eq, List.append_assoc]
  depth_eq := second.depth_eq.trans first.depth_eq
  room := by
    have secondRoom := second.room
    rw [first.depth_eq] at secondRoom
    exact ParseContext.hasRoom_max.2 ⟨first.room, secondRoom⟩

end Passes

namespace Parser

variable {Value Other : Type} {context : ParseContext} {before after : Cursor}

/-! ## Sequences of parsers -/

@[simp]
theorem pure_run (value : Value) (context : ParseContext) (cursor : Cursor) :
    (pure value : Parser Value) context cursor = .done value cursor := rfl

/-- What comes second is run where the first parser ends with a value. -/
theorem bind_run (parser : Parser Value) (next : Value → Parser Other)
    (context : ParseContext) (cursor : Cursor) :
    (parser >>= next) context cursor =
      match parser context cursor with
      | .done value after => next value context after
      | .failed error after => .failed error after := rfl

theorem bind_of_done
    {parser : Parser Value} {next : Value → Parser Other} {value : Value}
    (ends : parser context before = .done value after) :
    (parser >>= next) context before = next value context after := by
  rw [bind_run, ends]

/-- A sequence ends with a value if both parts do, one where the other has
stopped. -/
theorem bind_eq_done_iff
    {parser : Parser Value} {next : Value → Parser Other} {result : Other} :
    (parser >>= next) context before = .done result after ↔
      ∃ value middle, parser context before = .done value middle ∧
        next value context middle = .done result after := by
  rw [bind_run]
  constructor
  · intro ends
    split at ends
    · next value middle first => exact ⟨value, middle, first, ends⟩
    · cases ends
  · rintro ⟨value, middle, first, ends⟩
    rw [first]
    exact ends

theorem done_bind
    {parser : Parser Value} {next : Value → Parser Other} {value : Value}
    {result : Other} {middle : Cursor}
    (first : parser context before = .done value middle)
    (second : next value context middle = .done result after) :
    (parser >>= next) context before = .done result after :=
  bind_eq_done_iff.2 ⟨value, middle, first, second⟩

theorem pure_eq_done_iff {value result : Value} :
    (pure value : Parser Value) context before = .done result after ↔
      value = result ∧ before = after := by
  simp

theorem discard_run (parser : Parser Value) :
    discard parser = parser >>= fun _ => pure () := rfl

@[simp]
theorem unexpected_ne_done {expectation : Expectation} {value : Value} :
    (unexpected expectation : Parser Value) context before ≠ .done value after :=
  nofun

/-! ## Single lexemes -/

@[simp]
theorem peek_run (context : ParseContext) (cursor : Cursor) :
    peek context cursor = .done cursor.token? cursor := rfl

@[simp]
theorem advance_run (context : ParseContext) (lexeme : Lexeme) (rest : List Lexeme)
    (depth : Nat) :
    advance context ⟨lexeme :: rest, depth⟩ = .done () ⟨rest, depth⟩ := rfl

/-- The next token is that of the first lexeme ahead. -/
theorem token?_eq_some_iff {token : Token} :
    before.token? = some token ↔
      ∃ place rest, before = ⟨⟨token, place⟩ :: rest, before.depth⟩ := by
  rcases before with ⟨rest, depth⟩
  cases rest with
  | nil => simp [Cursor.token?]
  | cons lexeme rest =>
      rcases lexeme with ⟨found, place⟩
      simp [Cursor.token?]

/-- Advancing passes over the lexeme whose token is next. -/
theorem passes_of_advance
    {token : Token}
    (isNext : before.token? = some token)
    (ends : advance context before = .done () after) :
    ∃ place, Passes context before [⟨token, place⟩] 0 after := by
  rcases token?_eq_some_iff.1 isNext with ⟨place, rest, same⟩
  rw [same] at ends ⊢
  cases ends
  exact ⟨place, rfl, rfl, by simp⟩

/-- Eating a token either passes over it or finds another one. -/
theorem eat_eq_done_iff {token : Token} {eaten : Bool} :
    eat token context before = .done eaten after ↔
      (eaten = true ∧ ∃ place, Passes context before [⟨token, place⟩] 0 after) ∨
        eaten = false ∧ after = before ∧ before.token? ≠ some token := by
  by_cases isNext : before.token? = some token
  · rcases token?_eq_some_iff.1 isNext with ⟨place, rest, same⟩
    constructor
    · intro ends
      rw [eat, bind_of_done (peek_run _ _), if_pos isNext] at ends
      rcases bind_eq_done_iff.1 ends with ⟨_, middle, advanced, ends⟩
      rcases pure_eq_done_iff.1 ends with ⟨rfl, rfl⟩
      exact .inl ⟨rfl, passes_of_advance isNext advanced⟩
    · rintro (⟨rfl, other, passes⟩ | ⟨_, _, notNext⟩)
      · rw [eat, bind_of_done (peek_run _ _), if_pos isNext]
        have rest_eq := passes.rest_eq
        have depth_eq := passes.depth_eq
        rw [same] at rest_eq ⊢
        rcases List.cons.inj rest_eq with ⟨_, rest_eq⟩
        rw [bind_of_done (advance_run _ _ _ _), pure_run, rest_eq, ← depth_eq]
        rfl
      · exact (notNext isNext).elim
  · rw [eat, bind_of_done (peek_run _ _), if_neg isNext]
    constructor
    · rintro ⟨⟩
      exact .inr ⟨rfl, rfl, isNext⟩
    · rintro (⟨_, place, passes⟩ | ⟨rfl, rfl, _⟩)
      · refine (isNext ?_).elim
        simp [Cursor.token?, passes.rest_eq]
      · rfl

@[simp]
theorem eat_run (context : ParseContext) (token : Token) (place : Span)
    (rest : List Lexeme) (depth : Nat) :
    eat token context ⟨⟨token, place⟩ :: rest, depth⟩ = .done true ⟨rest, depth⟩ :=
  eat_eq_done_iff.2 (.inl ⟨rfl, place, rfl, rfl, by simp⟩)

theorem eat_run_of_ne
    {token : Token}
    (notNext : before.token? ≠ some token) :
    eat token context before = .done false before :=
  eat_eq_done_iff.2 (.inr ⟨rfl, rfl, notNext⟩)

/-- What follows depends on whether the token is eaten. -/
theorem eat_bind_ite_eq_done_iff
    {token : Token} {taken left : Parser Value} {result : Value} :
    (eat token >>= fun eaten => if eaten = true then taken else left) context before =
        .done result after ↔
      (∃ place middle, Passes context before [⟨token, place⟩] 0 middle ∧
          taken context middle = .done result after) ∨
        before.token? ≠ some token ∧ left context before = .done result after := by
  rw [bind_eq_done_iff]
  constructor
  · rintro ⟨eaten, middle, ate, ends⟩
    rcases eat_eq_done_iff.1 ate with ⟨rfl, place, passes⟩ | ⟨rfl, rfl, notNext⟩
    · exact .inl ⟨place, middle, passes, ends⟩
    · exact .inr ⟨notNext, ends⟩
  · rintro (⟨place, middle, passes, ends⟩ | ⟨notNext, ends⟩)
    · exact ⟨true, middle, eat_eq_done_iff.2 (.inl ⟨rfl, place, passes⟩), ends⟩
    · exact ⟨false, before, eat_run_of_ne notNext, ends⟩

theorem passes_of_expect
    {mark : Mark} {expectation : Expectation} {value : Unit}
    (ends : expect mark expectation context before = .done value after) :
    ∃ place, Passes context before [⟨.mark mark, place⟩] 0 after := by
  rcases eat_bind_ite_eq_done_iff.1 ends with ⟨place, _, passes, ends⟩ | ⟨_, ends⟩
  · rcases pure_eq_done_iff.1 ends with ⟨_, rfl⟩
    exact ⟨place, passes⟩
  · exact (unexpected_ne_done ends).elim

@[simp]
theorem expect_run (context : ParseContext) (mark : Mark) (expectation : Expectation)
    (place : Span) (rest : List Lexeme) (depth : Nat) :
    expect mark expectation context ⟨⟨.mark mark, place⟩ :: rest, depth⟩ =
      .done () ⟨rest, depth⟩ := by
  rw [expect, bind_of_done (eat_run _ _ _ _ _)]
  rfl

theorem passes_of_upperName
    {expectation : Expectation} {name : String}
    (ends : upperName expectation context before = .done name after) :
    ∃ place, Passes context before [⟨.upper name, place⟩] 0 after := by
  rw [upperName, bind_of_done (peek_run _ _)] at ends
  generalize isNext : before.token? = found at ends
  split at ends
  · next =>
      rcases bind_eq_done_iff.1 ends with ⟨_, middle, advanced, ends⟩
      rcases pure_eq_done_iff.1 ends with ⟨rfl, rfl⟩
      exact passes_of_advance isNext advanced
  · exact (unexpected_ne_done ends).elim

@[simp]
theorem upperName_run (context : ParseContext) (expectation : Expectation)
    (name : String) (place : Span) (rest : List Lexeme) (depth : Nat) :
    upperName expectation context ⟨⟨.upper name, place⟩ :: rest, depth⟩ =
      .done name ⟨rest, depth⟩ := rfl

theorem passes_of_lowerName
    {expectation : Expectation} {name : String}
    (ends : lowerName expectation context before = .done name after) :
    ∃ place, Passes context before [⟨.lower name, place⟩] 0 after := by
  rw [lowerName, bind_of_done (peek_run _ _)] at ends
  generalize isNext : before.token? = found at ends
  split at ends
  · next =>
      rcases bind_eq_done_iff.1 ends with ⟨_, middle, advanced, ends⟩
      rcases pure_eq_done_iff.1 ends with ⟨rfl, rfl⟩
      exact passes_of_advance isNext advanced
  · exact (unexpected_ne_done ends).elim

@[simp]
theorem lowerName_run (context : ParseContext) (expectation : Expectation)
    (name : String) (place : Span) (rest : List Lexeme) (depth : Nat) :
    lowerName expectation context ⟨⟨.lower name, place⟩ :: rest, depth⟩ =
      .done name ⟨rest, depth⟩ := rfl

/-! ## Nesting -/

/-- A nested parser ends with a value one level above where the inner one does,
when the limit leaves room for that level. -/
theorem nested_eq_done_iff {parser : Parser Value} {value : Value} :
    nested parser context before = .done value after ↔
      ¬ context.nestingLimit.any (· ≤ before.depth) ∧
        ∃ inner, parser context { before with depth := before.depth + 1 } =
            .done value inner ∧
          after = { inner with depth := inner.depth - 1 } := by
  unfold nested
  split
  · next isFull => simp [isFull, fail]
  · next hasRoom =>
      cases parser context { before with depth := before.depth + 1 } with
      | failed error inner => simp [Outcome.mapCursor]
      | done found inner =>
          constructor
          · rintro ⟨⟩
            exact ⟨hasRoom, inner, rfl, rfl⟩
          · rintro ⟨_, _, ⟨⟩, rfl⟩
            rfl

/-- What is passed over inside a nested parser is passed over by it, with one
more level open. -/
theorem passes_of_nested
    {inner : Cursor} {lexemes : List Lexeme} {height : Nat}
    (hasRoom : ¬ context.nestingLimit.any (· ≤ before.depth))
    (passes : Passes context { before with depth := before.depth + 1 } lexemes height inner) :
    Passes context before lexemes (height + 1)
      { inner with depth := inner.depth - 1 } where
  rest_eq := passes.rest_eq
  depth_eq := by simp [passes.depth_eq]
  room := ParseContext.hasRoom_succ.2 ⟨hasRoom, passes.room⟩

end Parser

end TarnBuild
