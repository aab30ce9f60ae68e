import TarnBuild.Proofs.Parser.Basic

/-!
# Reading without bounds

The parsers of the grammar are given the number of lexemes before them, and stop
where they have used it up.  The grammar knows no such number: a list goes on as
long as commas follow, an expression as long as nothing ends it, and the members
of a construct go on up to the closing brace, whatever stands in between.  The
functions of this module read in that way.  Each is the least solution of its
equation, so that it has an outcome only where it comes to an end.

Reading without bounds may end at a cursor just as a parser does.  Each way to put
parsers together keeps this, if it holds where the second parser starts.
-/

namespace TarnBuild

open Text (Span)

/-- A way to read on from a cursor, which may go on for ever and then has no outcome. -/
abbrev Unbounded (Value : Type) : Type :=
  ExceptT SourceError (StateT Cursor Option) Value

variable {Value Next : Type}

/-- Open a level, if the limit allows it. -/
def Parser.openLevel : Parser Unit := fun context cursor =>
  if context.nestingLimit.any (· ≤ cursor.depth) then
    fail .nestingTooDeep context cursor
  else
    .done () { cursor with depth := cursor.depth + 1 }

/-- Close the level that was opened last. -/
def Cursor.closeLevel (cursor : Cursor) : Cursor :=
  { cursor with depth := cursor.depth - 1 }

/-- The lexeme at the cursor, unless it is at the end. -/
def Parser.nextLexeme : Parser (Option Lexeme) := fun _ cursor =>
  .done cursor.rest.head? cursor

/-- The span of some lexemes with one more, given the span before it. -/
def extendSpan (span? : Option Span) (lexeme : Lexeme) : Option Span :=
  match span? with
  | some span => some ⟨span.start, lexeme.span.stop⟩
  | none => some lexeme.span

namespace ParseContext

-- A function calls itself through `|>.`, which keeps source positions out of its term.

/-- Read as a parser does, which always ends. -/
def run (context : ParseContext) (parser : Parser Value) : Unbounded Value := fun cursor =>
  some ((parser context cursor).result, (parser context cursor).cursor)

/-! ## Lists -/

/-- Read one or more items separated by commas, and the closing mark. -/
def readCommaList (context : ParseContext) (item : Unbounded Value) (close : Mark)
    (expectation : Expectation) : Unbounded (List Value) := do
  let first ← item
  if ← context.run (Parser.eat (.mark .comma)) then
    let others ← context |>.readCommaList item close expectation
    return first :: others
  else
    context.run (Parser.expect close expectation)
    return [first]
partial_fixpoint

/-- Read an optional list of type parameters in angle brackets. -/
def readTypeParameters (context : ParseContext) : Unbounded (List String) := do
  if ← context.run (Parser.eat (.mark .less)) then
    let name := context.run (Parser.upperName .typeParameter)
    context.readCommaList name .greater .commaOrAngle
  else
    return []

/-! ## Types -/

mutual

/-- Read a type. -/
def readType (context : ParseContext) : Unbounded TypeExpr := do
  context.run Parser.openLevel
  fun cursor => do
    let (result, after) ← context |>.readTypeInside cursor
    return (result, after.closeLevel)
partial_fixpoint

/-- Read a type inside the level that is opened for it. -/
def readTypeInside (context : ParseContext) : Unbounded TypeExpr := do
  match ← context.run Parser.peek with
  | some (.primitive type) =>
      context.run Parser.advance
      return .primitive type
  | some (.upper name) =>
      context.run Parser.advance
      if ← context.run (Parser.eat (.mark .less)) then
        let arguments ← context |>.readTypeList .greater .commaOrAngle
        return .named name arguments
      else
        return .named name []
  | some (.mark .leftParen) =>
      context.run Parser.advance
      let elements ←
        (do
          if ← context.run (Parser.eat (.mark .rightParen)) then
            return []
          else
            context |>.readTypeList .rightParen .commaOrParen)
      if ← context.run (Parser.eat (.mark .arrow)) then
        let result ← context |>.readType
        return .function elements result
      else
        return TypeExpr.group elements
  | _ => context.run (Parser.unexpected .type)
partial_fixpoint

-- The list is not left to the reader of lists, which would hide that types recur in it.
/-- Read one or more types separated by commas, and the closing mark. -/
def readTypeList (context : ParseContext) (close : Mark) (expectation : Expectation) :
    Unbounded (List TypeExpr) := do
  let first ← context |>.readType
  if ← context.run (Parser.eat (.mark .comma)) then
    let others ← context |>.readTypeList close expectation
    return first :: others
  else
    context.run (Parser.expect close expectation)
    return [first]
partial_fixpoint

end

/-- Read an optional type after a colon. -/
def readAnnotation (context : ParseContext) : Unbounded (Option TypeExpr) := do
  if ← context.run (Parser.eat (.mark .colon)) then
    return some (← context.readType)
  else
    return none

/-! ## Expressions -/

/-- Pass over the lexemes of an expression, given the number of open delimiters and
the span of those before, and tell both for where it ends. -/
def passExpression (context : ParseContext) (depth : Nat) (span? : Option Span) :
    Unbounded (Nat × Option Span) := do
  match ← context.run Parser.nextLexeme with
  | none => return (depth, span?)
  | some lexeme =>
      match openAfter depth lexeme.token with
      | none => return (depth, span?)
      | some after =>
          context.run Parser.advance
          context |>.passExpression after (extendSpan span? lexeme)
partial_fixpoint

/-- Read an expression and keep its text. -/
def readExpression (context : ParseContext) : Unbounded String := do
  let (depth, span?) ← context.passExpression 0 none
  if depth ≠ 0 then
    context.run (Parser.unexpected .closingDelimiter)
  else
    match span? with
    | some span => return String.ofList (Text.trimmed (Text.slice context.source span))
    | none => context.run (Parser.unexpected .expression)

/-! ## Members and constructs -/

/-- Read a constant after its introducing word. -/
def readConstant (context : ParseContext) (visibility : Visibility) : Unbounded Constant := do
  let name ← context.run (Parser.lowerName .constantName)
  let annotation ← context.readAnnotation
  context.run (Parser.expect .equal .equalSign)
  let value ← context.readExpression
  return { name, visibility, annotation, value }

/-- Read a parameter of a function. -/
def readParameter (context : ParseContext) : Unbounded Parameter := do
  let name ← context.run (Parser.lowerName .parameterName)
  context.run (Parser.expect .colon .colon)
  let annotation ← context.readType
  return { name, annotation }

/-- Read the parameters of a function and the closing parenthesis. -/
def readParameters (context : ParseContext) : Unbounded (List Parameter) := do
  if ← context.run (Parser.eat (.mark .rightParen)) then
    return []
  else
    context.readCommaList context.readParameter .rightParen .commaOrParen

/-- Read a function after its introducing word. -/
def readFunction (context : ParseContext) (visibility : Visibility) : Unbounded Function := do
  let name ← context.run (Parser.lowerName .functionName)
  let typeParameters ← context.readTypeParameters
  context.run (Parser.expect .leftParen .openingParen)
  let parameters ← context.readParameters
  context.run (Parser.expect .colon .returnColon)
  let result ← context.readType
  context.run (Parser.expect .equal .equalSign)
  let body ← context.readExpression
  return { name, visibility, typeParameters, parameters, result, body }

/-- Read a constant or a function, and the semicolon that may follow it. -/
def readOwnMember (context : ParseContext) : Unbounded Member := do
  let isPrivate ← context.run (Parser.eat (.keyword .privateWord))
  let visibility := if isPrivate then Visibility.hidden else Visibility.visible
  match ← context.run Parser.peek with
  | some (.keyword .valWord) =>
      context.run Parser.advance
      let constant ← context.readConstant visibility
      context.run (discard <| Parser.eat (.mark .semicolon))
      return .constant constant
  | some (.keyword .functionWord) =>
      context.run Parser.advance
      let function ← context.readFunction visibility
      context.run (discard <| Parser.eat (.mark .semicolon))
      return .function function
  | _ => context.run (Parser.unexpected .memberWord)

mutual

/-- Read a construct. -/
def readConstruct (context : ParseContext) : Unbounded Construct := do
  context.run Parser.openLevel
  fun cursor => do
    let (result, after) ← context |>.readConstructInside cursor
    return (result, after.closeLevel)
partial_fixpoint

/-- Read a construct inside the level that is opened for it. -/
def readConstructInside (context : ParseContext) : Unbounded Construct := do
  let kind ← context.run Parser.constructKind
  let name ← context.run (Parser.upperName .constructName)
  let typeParameters ← context.readTypeParameters
  context.run (Parser.expect .leftBrace .openingBrace)
  let members ← context |>.readMembers
  return Construct.ofMembers name kind typeParameters members
partial_fixpoint

/-- Read members up to the closing brace. -/
def readMembers (context : ParseContext) : Unbounded (List Member) := do
  match ← context.run Parser.peek with
  | some (.mark .rightBrace) =>
      context.run Parser.advance
      return []
  | some (.keyword .moduleWord) | some (.keyword .classWord) =>
      let first ← context |>.readConstruct
      let others ← context |>.readMembers
      return .nested first :: others
  | some _ =>
      let first ← context.readOwnMember
      let others ← context |>.readMembers
      return first :: others
  | none => context.run (Parser.unexpected .closingBrace)
partial_fixpoint

end

/-! ## Units -/

/-- Read the imports at the start of a unit. -/
def readImports (context : ParseContext) : Unbounded (List String) := do
  if ← context.run (Parser.eat (.keyword .importWord)) then
    let first ← context.run Parser.importedName
    let others ← context |>.readImports
    return first :: others
  else
    return []
partial_fixpoint

/-- Read a unit, which must end where the lexemes end. -/
def readUnit (context : ParseContext) : Unbounded CompilationUnit := do
  let imports ← context.readImports
  let body ← context.readConstruct
  match ← context.run Parser.peek with
  | some token => context.run (Parser.fail (.surplus token body.kind))
  | none => return ⟨NameSet.ofList imports, body⟩

end ParseContext

/-! ## Ends -/

namespace Unbounded

variable {context : ParseContext} {cursor after : Cursor}
  {unbounded : Unbounded Value} {parser : Parser Value}
  {next : Value → Unbounded Next} {parserNext : Value → Parser Next}

/-- Reading without bounds from a cursor ends, and as a parser does in the context. -/
def EndsAt (context : ParseContext) (cursor : Cursor) (unbounded : Unbounded Value)
    (parser : Parser Value) : Prop :=
  unbounded cursor = context.run parser cursor

/-- What comes second is read from where the first part has ended.  If that
fails or never ends, so does the sequence. -/
theorem bind_run (unbounded : Unbounded Value) (next : Value → Unbounded Next)
    (cursor : Cursor) :
    (unbounded >>= next) cursor =
      (unbounded cursor).bind fun
        | (.ok value, after) => next value after
        | (.error error, after) => some (.error error, after) := by
  show Option.bind _ _ = _
  congr 1
  funext outcome
  rcases outcome with ⟨result, after⟩
  cases result <;> rfl

/-- A value that is returned leaves the cursor where it is. -/
theorem endsAt_pure (value : Value) : EndsAt context cursor (pure value) (pure value) := rfl

theorem endsAt_run (parser : Parser Value) : EndsAt context cursor (context.run parser) parser :=
  rfl

/-- What comes second has to end only where the first parser can lead. -/
theorem EndsAt.bind
    (first : EndsAt context cursor unbounded parser)
    (second : ∀ value after, parser context cursor = .done value after →
      EndsAt context after (next value) (parserNext value)) :
    EndsAt context cursor (unbounded >>= next) (parser >>= parserNext) := by
  unfold EndsAt at first ⊢
  rw [bind_run, first, ParseContext.run, ParseContext.run, Parser.bind_run]
  cases ends : parser context cursor with
  | failed error after => rfl
  | done value after => exact second value after ends

theorem endsAt_ite {condition : Bool} {left : Unbounded Value} {parserLeft : Parser Value}
    (taken : EndsAt context cursor unbounded parser)
    (notTaken : EndsAt context cursor left parserLeft) :
    EndsAt context cursor (if condition = true then unbounded else left)
      (if condition = true then parser else parserLeft) := by
  cases condition with
  | true => exact taken
  | false => exact notTaken

/-- After a look at the next token it is enough to go on for that token. -/
theorem endsAt_peek_bind
    {next : Option Token → Unbounded Next} {parserNext : Option Token → Parser Next}
    (second : EndsAt context cursor (next cursor.token?) (parserNext cursor.token?)) :
    EndsAt context cursor (context.run Parser.peek >>= next) (Parser.peek >>= parserNext) := by
  refine (endsAt_run Parser.peek).bind ?_
  rintro _ _ ⟨⟩
  exact second

/-- What is read in a level decides how the level ends. -/
theorem endsAt_nested
    (inside : ∀ inner : Cursor, inner.rest = cursor.rest →
      EndsAt context inner unbounded parser) :
    EndsAt context cursor
      (do
        context.run Parser.openLevel
        fun cursor => do
          let (result, after) ← unbounded cursor
          return (result, after.closeLevel))
      (Parser.nested parser) := by
  unfold EndsAt
  rw [bind_run]
  unfold ParseContext.run Parser.openLevel Parser.nested
  split
  · rfl
  · simp only [Outcome.result, Outcome.cursor, Option.bind_some]
    have ended : unbounded { cursor with depth := cursor.depth + 1 } =
        context.run parser { cursor with depth := cursor.depth + 1 } := inside _ rfl
    rw [ended, ParseContext.run]
    cases parser context { cursor with depth := cursor.depth + 1 } <;> rfl

end Unbounded

end TarnBuild
