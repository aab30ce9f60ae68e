import TarnBuild.Source.Fault

/-!
# Parsers over lexemes

A parser reads lexemes from a cursor and ends with a value or with an error.
Both outcomes keep the cursor where reading stopped, so that reading may go on
from there.  An error is always reported at the place of the cursor: at the
next lexeme, or at the end of the source when there is none.
-/

namespace TarnBuild

/-- What a parser knows of the source that it reads. -/
structure ParseContext where
  /-- The text from which the lexemes were made. -/
  source : List Char
  /-- The number of constructs and types that may be open at once, if there is
  a limit. -/
  nestingLimit : Option Nat

/-- How far a source has been read. -/
structure Cursor where
  /-- The lexemes that are still to be read. -/
  rest : List Lexeme
  /-- The number of constructs and types that are open. -/
  depth : Nat
  deriving DecidableEq, Repr

/-- The place that a cursor stands at. -/
def Cursor.place (cursor : Cursor) (source : List Char) : Text.Span :=
  match cursor.rest with
  | lexeme :: _ => lexeme.span
  | [] => ⟨Text.byteLength source, Text.byteLength source⟩

/-- The token that a cursor stands at, unless it is at the end. -/
def Cursor.token? (cursor : Cursor) : Option Token :=
  cursor.rest.head?.map Lexeme.token

/-- How a parser ends. -/
inductive Outcome (Value : Type) where
  | done (value : Value) (cursor : Cursor)
  | failed (error : SourceError) (cursor : Cursor)
  deriving Repr

namespace Outcome

variable {Value : Type}

/-- The cursor where reading stopped. -/
def cursor : Outcome Value → Cursor
  | done _ cursor => cursor
  | failed _ cursor => cursor

/-- The value or the error, without the cursor. -/
def result : Outcome Value → Except SourceError Value
  | done value _ => .ok value
  | failed error _ => .error error

/-- The same outcome at another cursor. -/
def mapCursor (move : Cursor → Cursor) : Outcome Value → Outcome Value
  | done value cursor => done value (move cursor)
  | failed error cursor => failed error (move cursor)

end Outcome

/-- A reader of lexemes. -/
def Parser (Value : Type) : Type :=
  ParseContext → Cursor → Outcome Value

namespace Parser

variable {Value Other : Type}

instance : Monad Parser where
  pure value := fun _ cursor => .done value cursor
  bind parser next := fun context cursor =>
    match parser context cursor with
    | .done value after => next value context after
    | .failed error after => .failed error after

/-- Fail at the cursor. -/
def fail (fault : SourceFault) : Parser Value := fun context cursor =>
  .failed ⟨fault, cursor.place context.source⟩ cursor

/-- Fail at the cursor, where the grammar asks for something else. -/
def unexpected (expectation : Expectation) : Parser Value := fun context cursor =>
  fail (.unexpected expectation cursor.token?) context cursor

/-- The token at the cursor, unless it is at the end. -/
def peek : Parser (Option Token) := fun _ cursor =>
  .done cursor.token? cursor

/-- Pass over the lexeme at the cursor. -/
def advance : Parser Unit := fun _ cursor =>
  .done () { cursor with rest := cursor.rest.tail }

/-- Pass over a token if the cursor stands at it, and tell whether it did. -/
def eat (token : Token) : Parser Bool := do
  if (← peek) = some token then
    advance
    return true
  else
    return false

/-- Pass over a mark, which must be there. -/
def expect (mark : Mark) (expectation : Expectation) : Parser Unit := do
  if ← eat (.mark mark) then
    return ()
  else
    unexpected expectation

/-- Read the name of a type, module or class. -/
def upperName (expectation : Expectation) : Parser String := do
  match ← peek with
  | some (.upper name) =>
      advance
      return name
  | _ => unexpected expectation

/-- Read the name of a constant, function or parameter. -/
def lowerName (expectation : Expectation) : Parser String := do
  match ← peek with
  | some (.lower name) =>
      advance
      return name
  | _ => unexpected expectation

/-- Run a parser with one more construct or type open, if the limit allows it. -/
def nested (parser : Parser Value) : Parser Value := fun context cursor =>
  if context.nestingLimit.any (· ≤ cursor.depth) then
    fail .nestingTooDeep context cursor
  else
    (parser context { cursor with depth := cursor.depth + 1 }).mapCursor
      fun after => { after with depth := after.depth - 1 }

/-- Give a parser the number of lexemes that are still to be read. -/
def withRemaining (parser : Nat → Parser Value) : Parser Value :=
  fun context cursor => parser cursor.rest.length context cursor

/-- Read an item after each occurrence of a token, at most a given number of
times. -/
def repeatAfter (token : Token) (item : Parser Value) : Nat → Parser (List Value)
  | 0 => pure []
  | bound + 1 => do
      if ← eat token then
        let first ← item
        let others ← repeatAfter token item bound
        return first :: others
      else
        return []

/-- Read items separated by commas up to a closing mark, at most one more than
a given number of them. -/
def commaListUpTo (item : Parser Value) (close : Mark) (expectation : Expectation) :
    Nat → Parser (List Value)
  | 0 => do
      let only ← item
      expect close expectation
      return [only]
  | bound + 1 => do
      let first ← item
      if ← eat (.mark .comma) then
        let others ← commaListUpTo item close expectation bound
        return first :: others
      else
        expect close expectation
        return [first]

/-- Read one or more items separated by commas, and the closing mark. -/
def commaList (item : Parser Value) (close : Mark) (expectation : Expectation) :
    Parser (List Value) :=
  withRemaining (commaListUpTo item close expectation)

/-- Read items separated by commas and the closing parenthesis, which may also
stand alone. -/
def parenList (item : Parser Value) : Parser (List Value) := do
  if ← eat (.mark .rightParen) then
    return []
  else
    commaList item .rightParen .commaOrParen

end Parser

end TarnBuild
