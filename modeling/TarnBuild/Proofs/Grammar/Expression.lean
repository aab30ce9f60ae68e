import TarnBuild.Proofs.Grammar.Tree
import TarnBuild.Proofs.Parser.Basic

/-!
# Runs of expressions

The run that the parser takes follows the number of open delimiters from
lexeme to lexeme.  Seen as a whole it is the longest run whose balance stays
above zero and that has breaks only inside delimiters.  A run that leaves
nothing open is therefore an expression, and an expression is the whole run
wherever something stands after it that cannot belong to an expression.
-/

namespace TarnBuild

open Text (Span)

/-! ## Balance -/

@[simp]
theorem balance_nil : balance [] = 0 := rfl

@[simp]
theorem balance_cons (lexeme : Lexeme) (lexemes : List Lexeme) :
    balance (lexeme :: lexemes) = lexeme.token.nesting + balance lexemes := by
  simp [balance]

/-- A token keeps an expression going unless it closes more than was open, or
is a break outside delimiters. -/
theorem openAfter_eq_some_iff {depth after : Nat} {token : Token} :
    openAfter depth token = some after ↔
      (after : Int) = depth + token.nesting ∧ ¬ (depth = 0 ∧ token.isBreak) := by
  cases token with
  | mark sign => cases sign <;> simp [openAfter, Token.nesting, Token.isBreak] <;> omega
  | keyword word => cases word <;> simp [openAfter, Token.nesting, Token.isBreak] <;> omega
  | _ =>
      simp [openAfter, Token.nesting, Token.isBreak]
      omega

/-! ## Runs -/

/-- Some lexemes keep an expression going that has a number of delimiters open
before them. -/
structure Continues (depth : Nat) (lexemes : List Lexeme) : Prop where
  nonneg : ∀ front, front <+: lexemes → 0 ≤ depth + balance front
  breaks : ∀ front lexeme back, lexemes = front ++ lexeme :: back →
    lexeme.token.isBreak → depth + balance front ≠ 0

theorem continues_nil (depth : Nat) : Continues depth [] where
  nonneg front isFront := by
    rw [List.prefix_nil.1 isFront]
    simp
  breaks front lexeme back same := by simp at same

/-- A lexeme continues an expression together with those that continue it after
this lexeme. -/
theorem continues_cons_iff {depth : Nat} {lexeme : Lexeme} {lexemes : List Lexeme} :
    Continues depth (lexeme :: lexemes) ↔
      ∃ after, openAfter depth lexeme.token = some after ∧ Continues after lexemes := by
  constructor
  · intro continues
    have nonneg := continues.nonneg [lexeme] (by simp)
    have notBreak : ¬ (depth = 0 ∧ lexeme.token.isBreak) := by
      rintro ⟨rfl, isBreak⟩
      exact continues.breaks [] lexeme lexemes rfl isBreak (by simp)
    simp only [balance_cons, balance_nil] at nonneg
    have same : ((depth + lexeme.token.nesting).toNat : Int) =
        depth + lexeme.token.nesting := by omega
    refine ⟨_, openAfter_eq_some_iff.2 ⟨same, notBreak⟩, ?_, ?_⟩
    · intro front isFront
      have whole := continues.nonneg (lexeme :: front) (by simpa using isFront)
      rw [balance_cons] at whole
      omega
    · intro front other back split isBreak
      have whole := continues.breaks (lexeme :: front) other back (by simp [split]) isBreak
      rw [balance_cons] at whole
      omega
  · rintro ⟨after, opens, continues⟩
    rcases openAfter_eq_some_iff.1 opens with ⟨same, notBreak⟩
    constructor
    · intro front isFront
      cases front with
      | nil => simp
      | cons head front =>
          rcases List.cons_prefix_cons.1 isFront with ⟨rfl, isInnerFront⟩
          have inner := continues.nonneg front isInnerFront
          rw [balance_cons]
          omega
    · intro front other back split isBreak
      cases front with
      | nil =>
          rcases List.cons.inj split with ⟨rfl, _⟩
          intro zero
          exact notBreak ⟨by simpa using zero, isBreak⟩
      | cons head front =>
          rcases List.cons.inj split with ⟨rfl, innerSplit⟩
          have inner := continues.breaks front other back innerSplit isBreak
          rw [balance_cons]
          omega

/-- Nothing is left, or a lexeme that ends an expression without open
delimiters. -/
def EndsExpression (rest : List Lexeme) : Prop :=
  ∀ lexeme ∈ rest.head?, openAfter 0 lexeme.token = none

/-- A run takes all lexemes that go on with it, and stops where its delimiters
are closed and the next lexeme ends it. -/
theorem expressionRun_of_continues
    {depth : Nat} {lexemes rest : List Lexeme}
    (continues : Continues depth lexemes)
    (closed : depth + balance lexemes = 0)
    (ends : EndsExpression rest) :
    expressionRun depth (lexemes ++ rest) = ⟨lexemes, rest, 0⟩ := by
  induction lexemes generalizing depth with
  | nil =>
      have zero : depth = 0 := by simpa using closed
      subst zero
      cases rest with
      | nil => rfl
      | cons lexeme rest => simp [expressionRun, ends lexeme rfl]
  | cons lexeme lexemes ih =>
      rcases continues_cons_iff.1 continues with ⟨after, opens, inner⟩
      rcases openAfter_eq_some_iff.1 opens with ⟨same, _⟩
      rw [balance_cons] at closed
      simp only [List.cons_append, expressionRun, opens]
      rw [ih inner (by omega)]

/-- What a run takes goes on with it, and its depth is the balance of what it
has taken. -/
theorem continues_of_expressionRun (depth : Nat) (lexemes : List Lexeme) :
    lexemes = (expressionRun depth lexemes).taken ++ (expressionRun depth lexemes).rest ∧
      Continues depth (expressionRun depth lexemes).taken ∧
      ((expressionRun depth lexemes).depth : Int) =
        depth + balance (expressionRun depth lexemes).taken := by
  induction lexemes generalizing depth with
  | nil => exact ⟨rfl, continues_nil depth, by simp [expressionRun]⟩
  | cons lexeme lexemes ih =>
      simp only [expressionRun]
      cases opens : openAfter depth lexeme.token with
      | none => exact ⟨rfl, continues_nil depth, by simp⟩
      | some after =>
          rcases ih after with ⟨split, continues, same⟩
          rcases openAfter_eq_some_iff.1 opens with ⟨step, _⟩
          refine ⟨congrArg (lexeme :: ·) split,
            continues_cons_iff.2 ⟨after, opens, continues⟩, ?_⟩
          simp only [balance_cons]
          omega

/-! ## Expressions -/

theorem isExpression_iff {lexemes : List Lexeme} :
    IsExpression lexemes ↔
      lexemes ≠ [] ∧ Continues 0 lexemes ∧ balance lexemes = 0 := by
  constructor
  · rintro ⟨nonempty, nonneg, closed, breaks⟩
    refine ⟨nonempty, ⟨?_, ?_⟩, closed⟩
    · simpa using nonneg
    · simpa using breaks
  · rintro ⟨nonempty, ⟨nonneg, breaks⟩, closed⟩
    refine ⟨nonempty, ?_, closed, ?_⟩
    · simpa using nonneg
    · simpa using breaks

theorem isExpression_singleton (place : Span) :
    IsExpression [⟨.integerLiteral, place⟩] :=
  isExpression_iff.2 ⟨by simp, continues_cons_iff.2 ⟨0, rfl, continues_nil 0⟩, rfl⟩

namespace ExpressionTree

theorem expressionRun_append
    (tree : ExpressionTree) {rest : List Lexeme}
    (ends : EndsExpression rest) :
    expressionRun 0 (tree.lexemes ++ rest) = ⟨tree.lexemes, rest, 0⟩ := by
  rcases isExpression_iff.1 tree.isExpression with ⟨_, continues, closed⟩
  exact expressionRun_of_continues continues (by simpa using closed) ends

/-- The text that is kept of an expression lies between the ends of its lexemes. -/
theorem coveredText?_lexemes (source : List Char) (tree : ExpressionTree) :
    (coveredText? source tree.lexemes).map (fun text => String.ofList (Text.trimmed text)) =
      some (tree.text source) := by
  simp [coveredText?, text, List.head?_eq_some_head tree.isExpression.nonempty,
    List.getLast?_eq_some_getLast tree.isExpression.nonempty]

end ExpressionTree

namespace Parser

variable {context : ParseContext} {before after : Cursor}

/-- An expression that is read has a tree with its text, and opens no level. -/
theorem exists_tree_of_expression
    {result : String}
    (ends : expression context before = .done result after) :
    ∃ tree : ExpressionTree, tree.text context.source = result ∧
      Passes context before tree.lexemes 0 after := by
  rcases continues_of_expressionRun 0 before.rest with ⟨split, continues, same⟩
  unfold expression at ends
  dsimp only at ends
  split at ends
  · cases ends
  · next isClosed =>
      by_cases empty : (expressionRun 0 before.rest).taken = []
      · simp only [empty, coveredText?, List.head?_nil] at ends
        exact (unexpected_ne_done ends).elim
      · have isExpression : IsExpression (expressionRun 0 before.rest).taken :=
          isExpression_iff.2 ⟨empty, continues, by omega⟩
        let tree : ExpressionTree := ⟨_, isExpression⟩
        rcases Option.map_eq_some_iff.1 (tree.coveredText?_lexemes context.source) with
          ⟨covered, found, isText⟩
        rw [show coveredText? context.source (expressionRun 0 before.rest).taken =
          some covered from found] at ends
        cases ends
        exact ⟨tree, isText.symm, split, rfl, by simp⟩

/-- The lexemes of an expression are read as its text, if what follows ends it. -/
theorem expression_run
    (tree : ExpressionTree) {rest : List Lexeme} {depth : Nat}
    (ends : EndsExpression rest) :
    expression context ⟨tree.lexemes ++ rest, depth⟩ =
      .done (tree.text context.source) ⟨rest, depth⟩ := by
  rcases Option.map_eq_some_iff.1 (tree.coveredText?_lexemes context.source) with
    ⟨covered, found, isText⟩
  simp only [expression, tree.expressionRun_append ends, found, isText]
  rfl

end Parser

end TarnBuild
