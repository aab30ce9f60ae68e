import TarnBuild.Syntax.CompilationUnit
import TarnBuild.Token.Basic

/-!
# Faults in a source

Everything that can be wrong with the text of one source, and the wording of
the message for it.  A source error is a fault together with the place where
it was found.
-/

namespace TarnBuild

/-- What the grammar asks for at some point of a source. -/
inductive Expectation where
  | importedName
  | constructWord
  | constructName
  | openingBrace
  | closingBrace
  | memberWord
  | constantName
  | equalSign
  | functionName
  | openingParen
  | parameterName
  | colon
  | commaOrParen
  | returnColon
  | typeParameter
  | commaOrAngle
  | type
  | closingDelimiter
  | expression
  deriving DecidableEq, Repr

/-- How messages speak of what the grammar asks for. -/
def Expectation.describe : Expectation → String
  | importedName => "module or class name after 'import'"
  | constructWord => "'module' or 'class'"
  | constructName => "construct name"
  | openingBrace => "'\x7b'"
  | closingBrace => "'\x7d'"
  | memberWord => "'val' or 'function'"
  | constantName => "constant name"
  | equalSign => "'='"
  | functionName => "function name"
  | openingParen => "'('"
  | parameterName => "parameter name"
  | colon => "':'"
  | commaOrParen => "',' or ')'"
  | returnColon => "':' before the return type"
  | typeParameter => "type parameter"
  | commaOrAngle => "',' or '>'"
  | type => "a type"
  | closingDelimiter => "a closing delimiter"
  | expression => "an expression"

/-- What can be wrong with the text of a source. -/
inductive SourceFault where
  /-- A comment is opened and never closed. -/
  | unterminatedComment
  /-- No token starts with these characters. -/
  | unexpectedCharacters (characters : List Char)
  /-- The grammar asks for something else than the token found, or than the
  end of the source. -/
  | unexpected (expectation : Expectation) (found : Option Token)
  /-- The source goes on after its construct. -/
  | surplus (found : Token) (kind : ConstructKind)
  /-- Too many constructs and types are open at once. -/
  | nestingTooDeep
  deriving DecidableEq, Repr

/-- The wording of a fault. -/
def SourceFault.message : SourceFault → String
  | unterminatedComment => "unterminated block comment"
  | unexpectedCharacters characters =>
      "unexpected character '" ++ String.ofList characters ++ "'"
  | unexpected expectation found =>
      "expected " ++ expectation.describe ++ ", found " ++
        (found.map Token.describe).getD "end of file"
  | surplus found kind =>
      "unexpected " ++ found.describe ++ " after the top-level " ++ kind.word ++
        "; a file declares exactly one construct"
  | nestingTooDeep => "nesting too deep"

/-- A fault and the place where it was found. -/
structure SourceError where
  fault : SourceFault
  span : Text.Span
  deriving DecidableEq, Repr

/-- A message about a place in a source. -/
structure Diagnostic where
  message : String
  span : Text.Span
  deriving DecidableEq, Repr

namespace Diagnostic

/-- The line and column where the place starts.  A place may start beyond the
end of the source, but not inside a character of it. -/
def position? (diagnostic : Diagnostic) (source : List Char) : Option Text.Position :=
  Text.position? source diagnostic.span.start

/-- The message after the line and column where it applies. -/
def render? (diagnostic : Diagnostic) (source : List Char) : Option String :=
  (diagnostic.position? source).map fun position =>
    toString position.line ++ ":" ++ toString position.column ++ ": " ++
      diagnostic.message

/-- The message before the byte offsets of the place where it applies. -/
def display (diagnostic : Diagnostic) : String :=
  diagnostic.message ++ " at " ++ toString diagnostic.span.start ++ ".." ++
    toString diagnostic.span.stop

end Diagnostic

/-- The message for an error, at its place. -/
def SourceError.diagnostic (error : SourceError) : Diagnostic where
  message := error.fault.message
  span := error.span

end TarnBuild
