import TarnBuild.Proofs.Grammar.TokensOnly

/-!
# Going on after a call

A parser of units can be called again and again on the lexemes of one source,
and goes on where its last call stopped, whether that call ended with a unit or
with an error.  No call leaves anything behind but the place where it stopped:
however a parser ends, it has passed over some lexemes and has closed as many
constructs and types as it has opened.

Each way to put parsers together keeps this, and the small parsers have it.
-/

namespace TarnBuild

/-- However a parser ends, it has passed over some lexemes, and as many
constructs and types are open as at its start. -/
def Settles {Value : Type} (parser : Parser Value) : Prop :=
  ∀ context cursor, ∃ count,
    (parser context cursor).cursor = ⟨cursor.rest.drop count, cursor.depth⟩

section Combinators

variable {Value Other : Type} {parser left : Parser Value} {next : Value → Parser Other}

/-! ## Sequences and choices -/

/-- A value that is returned takes no lexemes. -/
theorem settles_pure (value : Value) : Settles (pure value) :=
  fun _ _ => ⟨0, rfl⟩

/-- A sequence passes over the lexemes of both parts, or over those of the first
part alone if that fails. -/
theorem Settles.bind (first : Settles parser) (others : ∀ value, Settles (next value)) :
    Settles (parser >>= next) := by
  intro context cursor
  rcases first context cursor with ⟨count, same⟩
  rw [Parser.bind_run]
  cases ends : parser context cursor with
  | failed error after =>
      rw [ends] at same
      exact ⟨count, same⟩
  | done value after =>
      rw [ends, Outcome.cursor] at same
      rcases others value context after with ⟨otherCount, otherSame⟩
      refine ⟨count + otherCount, ?_⟩
      rw [← List.drop_drop, otherSame, same]

theorem settles_ite {condition : Prop} [Decidable condition]
    (taken : Settles parser) (notTaken : Settles left) :
    Settles (if condition then parser else left) := by
  split
  · exact taken
  · exact notTaken

/-! ## Small parsers -/

/-- A fault is found without going on. -/
theorem settles_fail (fault : SourceFault) : Settles (Parser.fail fault : Parser Value) :=
  fun _ _ => ⟨0, rfl⟩

theorem settles_unexpected (expectation : Expectation) :
    Settles (Parser.unexpected expectation : Parser Value) :=
  fun _ _ => ⟨0, rfl⟩

theorem settles_peek : Settles Parser.peek :=
  fun _ _ => ⟨0, rfl⟩

/-- One lexeme is passed over, or none at the end. -/
theorem settles_advance : Settles Parser.advance :=
  fun _ cursor => ⟨1, by rw [List.drop_one]; rfl⟩

/-- A token that is not the one to be eaten stays where it is. -/
theorem settles_eat (token : Token) : Settles (Parser.eat token) :=
  settles_peek.bind fun _ =>
    settles_ite (settles_advance.bind fun _ => settles_pure _) (settles_pure _)

theorem settles_discard_eat (token : Token) :
    Settles (discard (Parser.eat token) : Parser Unit) :=
  (settles_eat token).bind fun _ => settles_pure _

/-- A mark that is missing is not passed over. -/
theorem settles_expect (mark : Mark) (expectation : Expectation) :
    Settles (Parser.expect mark expectation) :=
  (settles_eat _).bind fun _ => settles_ite (settles_pure _) (settles_unexpected _)

theorem settles_upperName (expectation : Expectation) :
    Settles (Parser.upperName expectation) := by
  refine settles_peek.bind fun found => ?_
  split
  · exact settles_advance.bind fun _ => settles_pure _
  · exact settles_unexpected _

theorem settles_lowerName (expectation : Expectation) :
    Settles (Parser.lowerName expectation) := by
  refine settles_peek.bind fun found => ?_
  split
  · exact settles_advance.bind fun _ => settles_pure _
  · exact settles_unexpected _

/-! ## Nesting and repetition -/

/-- The level that is closed is the one that was opened, so there is one to be
closed. -/
theorem Settles.nested (inner : Settles parser) : Settles (Parser.nested parser) := by
  intro context cursor
  unfold Parser.nested
  split
  · exact ⟨0, rfl⟩
  · rcases inner context { cursor with depth := cursor.depth + 1 } with ⟨count, same⟩
    refine ⟨count, ?_⟩
    generalize parser context _ = outcome at same ⊢
    cases outcome <;> simp_all [Outcome.mapCursor, Outcome.cursor]

/-- A bound only says how often a parser may go on, so any bound will do. -/
theorem settles_withRemaining {parser : Nat → Parser Value}
    (settles : ∀ bound, Settles (parser bound)) :
    Settles (Parser.withRemaining parser) :=
  fun context cursor => settles _ context cursor

/-- A repetition settles if its item does, by induction on the bound. -/
theorem settles_repeatAfter (token : Token) (item : Settles parser) (bound : Nat) :
    Settles (Parser.repeatAfter token parser bound) := by
  induction bound with
  | zero => exact settles_pure _
  | succ bound ih =>
      refine (settles_eat _).bind fun _ => settles_ite ?_ (settles_pure _)
      exact item.bind fun first => ih.bind fun others => settles_pure _

/-- A list settles if its items do, whether or not its closing mark is there. -/
theorem settles_commaListUpTo
    (item : Settles parser) (close : Mark) (expectation : Expectation) (bound : Nat) :
    Settles (Parser.commaListUpTo parser close expectation bound) := by
  induction bound with
  | zero => exact item.bind fun only => (settles_expect _ _).bind fun _ => settles_pure _
  | succ bound ih =>
      refine item.bind fun first => (settles_eat _).bind fun _ => settles_ite ?_ ?_
      · exact ih.bind fun others => settles_pure _
      · exact (settles_expect _ _).bind fun _ => settles_pure _

theorem settles_commaList
    (item : Settles parser) (close : Mark) (expectation : Expectation) :
    Settles (Parser.commaList parser close expectation) :=
  settles_withRemaining (settles_commaListUpTo item close expectation)

theorem settles_parenList (item : Settles parser) : Settles (Parser.parenList parser) :=
  (settles_eat _).bind fun _ =>
    settles_ite (settles_pure _) (settles_commaList item _ _)

end Combinators

/-! ## Types and expressions -/

/-- A parser opens one level, reads something that settles, and closes it. -/
def OpensLevel {Value : Type} (parser : Parser Value) : Prop :=
  ∃ inner, parser = Parser.nested inner ∧ Settles inner

/-- The level that a parser opens is closed again when it ends. -/
theorem OpensLevel.settles {Value : Type} {parser : Parser Value}
    (opens : OpensLevel parser) : Settles parser := by
  rcases opens with ⟨inner, rfl, settles⟩
  exact settles.nested

/-- Every type opens a level of its own, even where the bound leaves no room for
it, and all that is read inside settles. -/
theorem opensLevel_typeUpTo (bound : Nat) : OpensLevel (Parser.typeUpTo bound) := by
  induction bound with
  | zero => exact ⟨_, rfl, settles_unexpected _⟩
  | succ bound ih =>
      refine ⟨_, rfl, settles_peek.bind fun found => ?_⟩
      split
      · exact settles_advance.bind fun _ => settles_pure _
      · refine settles_advance.bind fun _ => ?_
        refine (settles_eat _).bind fun _ => settles_ite ?_ (settles_pure _)
        exact (settles_commaList ih.settles _ _).bind fun arguments => settles_pure _
      · refine settles_advance.bind fun _ => ?_
        refine (settles_parenList ih.settles).bind fun elements => ?_
        refine (settles_eat _).bind fun _ => settles_ite ?_ (settles_pure _)
        exact ih.settles.bind fun result => settles_pure _
      · exact settles_unexpected _

theorem settles_type : Settles Parser.type :=
  settles_withRemaining fun bound => (opensLevel_typeUpTo bound).settles

theorem settles_typeParameters : Settles Parser.typeParameters :=
  (settles_eat _).bind fun _ =>
    settles_ite (settles_commaList (settles_upperName _) _ _) (settles_pure _)

theorem settles_annotation : Settles Parser.annotation :=
  (settles_eat _).bind fun _ =>
    settles_ite (settles_type.bind fun _ => settles_pure _) (settles_pure _)

/-- Whether or not the run makes an expression, reading stops behind it. -/
theorem cursor_expression (context : ParseContext) (cursor : Cursor) :
    (Parser.expression context cursor).cursor =
      ⟨(expressionRun 0 cursor.rest).rest, cursor.depth⟩ := by
  unfold Parser.expression
  dsimp only
  split
  · rfl
  · split <;> rfl

/-- An expression takes the lexemes of its run, also if the run is none. -/
theorem settles_expression : Settles Parser.expression := by
  intro context cursor
  refine ⟨(expressionRun 0 cursor.rest).taken.length, ?_⟩
  rw [cursor_expression, Twins.rest_expressionRun]

/-! ## Members and constructs -/

/-- A constant settles, wherever in it a fault is found. -/
theorem settles_constant (visibility : Visibility) : Settles (Parser.constant visibility) := by
  refine (settles_lowerName _).bind fun name => ?_
  refine settles_annotation.bind fun annotation => ?_
  refine (settles_expect _ _).bind fun _ => ?_
  exact settles_expression.bind fun value => settles_pure _

theorem settles_parameter : Settles Parser.parameter := by
  refine (settles_lowerName _).bind fun name => ?_
  refine (settles_expect _ _).bind fun _ => ?_
  exact settles_type.bind fun annotation => settles_pure _

theorem settles_function (visibility : Visibility) : Settles (Parser.function visibility) := by
  refine (settles_lowerName _).bind fun name => ?_
  refine settles_typeParameters.bind fun typeParameters => ?_
  refine (settles_expect _ _).bind fun _ => ?_
  refine (settles_parenList settles_parameter).bind fun parameters => ?_
  refine (settles_expect _ _).bind fun _ => ?_
  refine settles_type.bind fun result => ?_
  refine (settles_expect _ _).bind fun _ => ?_
  exact settles_expression.bind fun body => settles_pure _

theorem settles_ownMember : Settles Parser.ownMember := by
  refine (settles_eat _).bind fun isPrivate => settles_peek.bind fun found => ?_
  split
  · refine settles_advance.bind fun _ => (settles_constant _).bind fun constant => ?_
    exact (settles_discard_eat _).bind fun _ => settles_pure _
  · refine settles_advance.bind fun _ => (settles_function _).bind fun function => ?_
    exact (settles_discard_eat _).bind fun _ => settles_pure _
  · exact settles_unexpected _

theorem settles_membersUpTo {inner : Parser Construct} (settles : Settles inner) (bound : Nat) :
    Settles (Parser.membersUpTo inner bound) := by
  induction bound with
  | zero => exact settles_unexpected _
  | succ bound ih =>
      refine settles_peek.bind fun found => ?_
      split
      · exact settles_advance.bind fun _ => settles_pure _
      · exact settles.bind fun first => ih.bind fun others => settles_pure _
      · exact settles.bind fun first => ih.bind fun others => settles_pure _
      · exact settles_ownMember.bind fun first => ih.bind fun others => settles_pure _
      · exact settles_unexpected _

theorem settles_constructKind : Settles Parser.constructKind := by
  refine settles_peek.bind fun found => ?_
  split
  · exact settles_advance.bind fun _ => settles_pure _
  · exact settles_advance.bind fun _ => settles_pure _
  · exact settles_unexpected _

/-- Every construct opens a level of its own, and the constructs inside it
settle because they have closed theirs. -/
theorem opensLevel_constructUpTo (bound : Nat) : OpensLevel (Parser.constructUpTo bound) := by
  induction bound with
  | zero => exact ⟨_, rfl, settles_unexpected _⟩
  | succ bound ih =>
      refine ⟨_, rfl, settles_constructKind.bind fun kind => ?_⟩
      refine (settles_upperName _).bind fun name => ?_
      refine settles_typeParameters.bind fun typeParameters => ?_
      refine (settles_expect _ _).bind fun _ => ?_
      have members := settles_withRemaining (settles_membersUpTo ih.settles)
      exact members.bind fun members => settles_pure _

theorem settles_construct : Settles Parser.construct :=
  settles_withRemaining fun bound => (opensLevel_constructUpTo bound).settles

/-! ## Units, one call after the other -/

theorem settles_importedName : Settles Parser.importedName :=
  (settles_upperName _).bind fun _ =>
    (settles_discard_eat _).bind fun _ => settles_pure _

theorem settles_imports : Settles Parser.imports :=
  settles_withRemaining (settles_repeatAfter _ settles_importedName)

/-- A call of the parser of units passes over some lexemes and leaves nothing
open, whatever it answers. -/
theorem settles_unit : Settles Parser.unit := by
  refine settles_imports.bind fun imports => settles_construct.bind fun body => ?_
  refine settles_peek.bind fun found => ?_
  cases found with
  | some token => exact settles_fail _
  | none => exact settles_pure _

/-- The cursor after some calls of the parser of units.  The first call starts
at the front of the lexemes, and every other one where the call before it
stopped. -/
def cursorAfter (context : ParseContext) (lexemes : List Lexeme) : Nat → Cursor
  | 0 => ⟨lexemes, 0⟩
  | calls + 1 => (Parser.unit context (cursorAfter context lexemes calls)).cursor

/-- The number of lexemes that have been read. -/
def Cursor.position (cursor : Cursor) (lexemes : List Lexeme) : Nat :=
  lexemes.length - cursor.rest.length

variable (context : ParseContext) (lexemes : List Lexeme) (calls : Nat)

/-- A call only drops lexemes. -/
theorem exists_cursorAfter_succ :
    ∃ count, cursorAfter context lexemes (calls + 1) =
      ⟨(cursorAfter context lexemes calls).rest.drop count,
        (cursorAfter context lexemes calls).depth⟩ :=
  settles_unit context (cursorAfter context lexemes calls)

/-- Nothing is open between two calls. -/
theorem depth_cursorAfter : (cursorAfter context lexemes calls).depth = 0 := by
  induction calls with
  | zero => rfl
  | succ calls ih =>
      rcases exists_cursorAfter_succ context lexemes calls with ⟨count, same⟩
      rw [same]
      exact ih

/-- What is left to read is the end of the source. -/
theorem rest_cursorAfter_suffix : (cursorAfter context lexemes calls).rest <:+ lexemes := by
  induction calls with
  | zero => exact List.suffix_rfl
  | succ calls ih =>
      rcases exists_cursorAfter_succ context lexemes calls with ⟨count, same⟩
      rw [same]
      exact (List.drop_suffix count _).trans ih

/-- The cursor between two calls is the one at which a new parser starts, given
only the lexemes that are left. -/
theorem cursorAfter_eq :
    cursorAfter context lexemes calls =
      ⟨lexemes.drop ((cursorAfter context lexemes calls).position lexemes), 0⟩ := by
  have rest := List.suffix_iff_eq_drop.1 (rest_cursorAfter_suffix context lexemes calls)
  have depth := depth_cursorAfter context lexemes calls
  rw [Cursor.position, ← rest, ← depth]

/-- A call leaves nothing open and does not go back, and its answer is that of a
new parser for the lexemes that were left to it.  A type or construct that is
closed has been opened before: what is read inside ends at the same depth. -/
theorem depth_cursorAfter_and_result_eq_fresh :
    (cursorAfter context lexemes (calls + 1)).depth = 0 ∧
      (cursorAfter context lexemes calls).position lexemes ≤
        (cursorAfter context lexemes (calls + 1)).position lexemes ∧
      (cursorAfter context lexemes (calls + 1)).position lexemes ≤ lexemes.length ∧
      (Parser.unit context (cursorAfter context lexemes calls)).result =
        (Parser.unit context
          ⟨lexemes.drop ((cursorAfter context lexemes calls).position lexemes), 0⟩).result ∧
      ∀ bound, OpensLevel (Parser.typeUpTo bound) ∧ OpensLevel (Parser.constructUpTo bound) := by
  rcases exists_cursorAfter_succ context lexemes calls with ⟨count, same⟩
  refine ⟨depth_cursorAfter context lexemes (calls + 1), ?_, Nat.sub_le _ _, ?_, fun bound =>
    ⟨opensLevel_typeUpTo bound, opensLevel_constructUpTo bound⟩⟩
  · rw [same, Cursor.position, Cursor.position, List.length_drop]
    omega
  · rw [← cursorAfter_eq]

end TarnBuild
