import TarnBuild.Parser.Basic
import TarnBuild.Text.Blank

/-!
# Reading expressions

An expression is a run of lexemes that is kept as text.  The run is as long as
it can be: outside all delimiters it stops before a closing delimiter, a
semicolon, or a word that starts a member or a construct.  Delimiters are
counted without regard to their kind.
-/

namespace TarnBuild

/-- The number of delimiters that are open after a token of an expression,
given their number before it, or nothing if the token ends the expression. -/
def openAfter (depth : Nat) : Token → Option Nat
  | .mark .leftBrace | .mark .leftParen | .mark .leftBracket => some (depth + 1)
  | .mark .rightBrace | .mark .rightParen | .mark .rightBracket =>
      if depth = 0 then none else some (depth - 1)
  | .mark .semicolon | .keyword .valWord | .keyword .functionWord
  | .keyword .privateWord | .keyword .moduleWord | .keyword .classWord =>
      if depth = 0 then none else some depth
  | _ => some depth

/-- The lexemes of an expression, with what is left. -/
structure ExpressionRun where
  taken : List Lexeme
  rest : List Lexeme
  /-- The number of delimiters that are still open. -/
  depth : Nat
  deriving DecidableEq, Repr

/-- The longest run of an expression, given the number of open delimiters. -/
def expressionRun (depth : Nat) : List Lexeme → ExpressionRun
  | [] => ⟨[], [], depth⟩
  | lexeme :: rest =>
      match openAfter depth lexeme.token with
      | none => ⟨[], lexeme :: rest, depth⟩
      | some after =>
          let run := expressionRun after rest
          { run with taken := lexeme :: run.taken }

/-- The part of a source from the first to the last of some lexemes. -/
def coveredText? (source : List Char) (lexemes : List Lexeme) : Option (List Char) :=
  match lexemes.head?, lexemes.getLast? with
  | some first, some last => some (Text.slice source ⟨first.span.start, last.span.stop⟩)
  | _, _ => none

/-- Read an expression and keep its text. -/
def Parser.expression : Parser String := fun context cursor =>
  let run := expressionRun 0 cursor.rest
  let after := { cursor with rest := run.rest }
  if run.depth ≠ 0 then
    unexpected .closingDelimiter context after
  else
    match coveredText? context.source run.taken with
    | some text => .done (String.ofList (Text.trimmed text)) after
    | none => unexpected .expression context after

end TarnBuild
