import TarnBuild.Parser.Expression
import TarnBuild.Parser.TypeExpr
import TarnBuild.Syntax.CompilationUnit
import TarnBuild.Token.Lexer

/-!
# Reading constructs and units

A unit is a list of imports and one construct, and nothing after it.  A
construct is a module or a class with members in braces: constants and
functions, which may be private, and further constructs.  A semicolon may
stand after an import, a constant and a function.
-/

namespace TarnBuild

/-- One of the things that a construct holds. -/
inductive Member where
  | constant (member : Constant)
  | function (member : Function)
  | nested (member : Construct)
  deriving Repr

namespace Member

/-- The constant that a member is. -/
def constant? : Member → Option Constant
  | constant member => some member
  | _ => none

/-- The function that a member is. -/
def function? : Member → Option Function
  | function member => some member
  | _ => none

/-- The construct that a member is. -/
def nested? : Member → Option Construct
  | nested member => some member
  | _ => none

end Member

/-- The construct with the given members, each kind of them in their order. -/
def Construct.ofMembers (name : String) (kind : ConstructKind)
    (typeParameters : List String) (members : List Member) : Construct where
  name := name
  kind := kind
  typeParameters := typeParameters
  constants := members.filterMap Member.constant?
  functions := members.filterMap Member.function?
  nested := members.filterMap Member.nested?

namespace Parser

/-- Read an optional list of type parameters in angle brackets. -/
def typeParameters : Parser (List String) := do
  if ← eat (.mark .less) then
    commaList (upperName .typeParameter) .greater .commaOrAngle
  else
    return []

/-- Read an optional type after a colon. -/
def annotation : Parser (Option TypeExpr) := do
  if ← eat (.mark .colon) then
    return some (← type)
  else
    return none

/-- Read a constant after its introducing word. -/
def constant (visibility : Visibility) : Parser Constant := do
  let name ← lowerName .constantName
  let annotation ← annotation
  expect .equal .equalSign
  let value ← expression
  return { name, visibility, annotation, value }

/-- Read a parameter of a function. -/
def parameter : Parser Parameter := do
  let name ← lowerName .parameterName
  expect .colon .colon
  let annotation ← type
  return { name, annotation }

/-- Read a function after its introducing word. -/
def function (visibility : Visibility) : Parser Function := do
  let name ← lowerName .functionName
  let typeParameters ← typeParameters
  expect .leftParen .openingParen
  let parameters ← parenList parameter
  expect .colon .returnColon
  let result ← type
  expect .equal .equalSign
  let body ← expression
  return { name, visibility, typeParameters, parameters, result, body }

/-- Read a constant or a function, and the semicolon that may follow it. -/
def ownMember : Parser Member := do
  let visibility :=
    if ← eat (.keyword .privateWord) then Visibility.hidden else Visibility.visible
  match ← peek with
  | some (.keyword .valWord) =>
      advance
      let constant ← constant visibility
      discard <| eat (.mark .semicolon)
      return .constant constant
  | some (.keyword .functionWord) =>
      advance
      let function ← function visibility
      discard <| eat (.mark .semicolon)
      return .function function
  | _ => unexpected .memberWord

/-- Read members up to the closing brace, from at most a given number of
lexemes, with a parser for the constructs among them. -/
def membersUpTo (inner : Parser Construct) : Nat → Parser (List Member)
  | 0 => unexpected .closingBrace
  | bound + 1 => do
      match ← peek with
      | some (.mark .rightBrace) =>
          advance
          return []
      | some (.keyword .moduleWord) | some (.keyword .classWord) =>
          let first ← inner
          let others ← membersUpTo inner bound
          return .nested first :: others
      | some _ =>
          let first ← ownMember
          let others ← membersUpTo inner bound
          return first :: others
      | none => unexpected .closingBrace

/-- Read members up to the closing brace. -/
def members (inner : Parser Construct) : Parser (List Member) :=
  withRemaining (membersUpTo inner)

/-- Read the word that introduces a construct. -/
def constructKind : Parser ConstructKind := do
  match ← peek with
  | some (.keyword .moduleWord) =>
      advance
      return .moduleKind
  | some (.keyword .classWord) =>
      advance
      return .classKind
  | _ => unexpected .constructWord

/-- Read a construct from at most a given number of lexemes.  Where no lexeme
is left, the answer is the one for the end of the source. -/
def constructUpTo : Nat → Parser Construct
  | 0 => nested (unexpected .constructWord)
  | bound + 1 => nested do
      let kind ← constructKind
      let name ← upperName .constructName
      let typeParameters ← typeParameters
      expect .leftBrace .openingBrace
      let members ← members (constructUpTo bound)
      return Construct.ofMembers name kind typeParameters members

/-- Read a construct. -/
def construct : Parser Construct :=
  withRemaining constructUpTo

/-- Read one import after its introducing word, and the semicolon that may
follow it. -/
def importedName : Parser String := do
  let name ← upperName .importedName
  discard <| eat (.mark .semicolon)
  return name

/-- Read the imports at the start of a unit. -/
def imports : Parser (List String) :=
  withRemaining (repeatAfter (.keyword .importWord) importedName)

/-- Read a unit, which must end where the lexemes end. -/
def unit : Parser CompilationUnit := do
  let imports ← imports
  let body ← construct
  match ← peek with
  | some token => fail (.surplus token body.kind)
  | none => return ⟨NameSet.ofList imports, body⟩

end Parser

/-- The number of constructs and types that may be open at once in a source. -/
def nestingLimit : Nat := 256

/-- Read a source as a unit, with or without a limit on its nesting. -/
def parseWithin (limit : Option Nat) (source : List Char) :
    Except SourceError CompilationUnit := do
  let lexemes ← lex source
  (Parser.unit ⟨source, limit⟩ ⟨lexemes, 0⟩).result

/-- Read a source as a unit. -/
def parse (source : List Char) : Except SourceError CompilationUnit :=
  parseWithin (some nestingLimit) source

end TarnBuild
