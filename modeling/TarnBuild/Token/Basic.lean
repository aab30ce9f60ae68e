import TarnBuild.Syntax.TypeExpr
import TarnBuild.Text.Offset

/-!
# Tokens

The words and marks that a source is made of.  A token keeps the name of an
identifier and nothing else of its text: two literals of one kind are the same
token.  A lexeme is a token together with the place where it stands.
-/

namespace TarnBuild

/-- The words that are reserved for declarations. -/
inductive Keyword where
  | importWord
  | moduleWord
  | classWord
  | valWord
  | functionWord
  | privateWord
  deriving DecidableEq, Repr

namespace Keyword

/-- Every keyword. -/
def all : List Keyword :=
  [importWord, moduleWord, classWord, valWord, functionWord, privateWord]

/-- A keyword as it is written. -/
def word : Keyword → String
  | importWord => "import"
  | moduleWord => "module"
  | classWord => "class"
  | valWord => "val"
  | functionWord => "function"
  | privateWord => "private"

/-- The name of a keyword in messages. -/
def kindName : Keyword → String
  | importWord => "Import"
  | moduleWord => "Module"
  | classWord => "Class"
  | valWord => "Val"
  | functionWord => "Function"
  | privateWord => "Private"

/-- The keyword that is written as a text. -/
def ofWord? (text : String) : Option Keyword :=
  all.find? (·.word == text)

@[simp]
theorem ofWord?_word (keyword : Keyword) : ofWord? keyword.word = some keyword := by
  cases keyword <;> decide

end Keyword

/-- The marks that the grammar gives a meaning to. -/
inductive Mark where
  | leftBrace
  | rightBrace
  | leftParen
  | rightParen
  | leftBracket
  | rightBracket
  | less
  | greater
  | comma
  | colon
  | semicolon
  | equal
  | arrow
  deriving DecidableEq, Repr

namespace Mark

/-- The characters of a mark. -/
def text : Mark → List Char
  | leftBrace => ['\x7b']
  | rightBrace => ['\x7d']
  | leftParen => ['(']
  | rightParen => [')']
  | leftBracket => ['[']
  | rightBracket => [']']
  | less => ['<']
  | greater => ['>']
  | comma => [',']
  | colon => [':']
  | semicolon => [';']
  | equal => ['=']
  | arrow => ['-', '>']

/-- The name of a mark in messages. -/
def kindName : Mark → String
  | leftBrace => "LBrace"
  | rightBrace => "RBrace"
  | leftParen => "LParen"
  | rightParen => "RParen"
  | leftBracket => "LBracket"
  | rightBracket => "RBracket"
  | less => "Lt"
  | greater => "Gt"
  | comma => "Comma"
  | colon => "Colon"
  | semicolon => "Semicolon"
  | equal => "Eq"
  | arrow => "Arrow"

/-- The marks of one character. -/
def singles : List Mark :=
  [leftBrace, rightBrace, leftParen, rightParen, leftBracket, rightBracket,
   less, greater, comma, colon, semicolon, equal]

/-- The mark that a character is. -/
def ofChar? (character : Char) : Option Mark :=
  singles.find? (·.text == [character])

end Mark

/-- The name of a primitive type in messages. -/
def Primitive.kindName : Primitive → String
  | .unit => "UnitType"
  | .int => "IntType"
  | .float => "FloatType"
  | .bool => "BoolType"
  | .char => "CharType"
  | .string => "StringType"

/-- The smallest meaningful parts of a source. -/
inductive Token where
  | keyword (word : Keyword)
  /-- A word reserved for a primitive type. -/
  | primitive (type : Primitive)
  | mark (sign : Mark)
  /-- An operator character without a meaning in the grammar. -/
  | symbol
  /-- A number without a decimal point. -/
  | integerLiteral
  /-- A number with a decimal point. -/
  | floatLiteral
  | stringLiteral
  | charLiteral
  /-- A name of a type, module or class. -/
  | upper (name : String)
  /-- A name of a constant, function or parameter. -/
  | lower (name : String)
  deriving DecidableEq, Repr

namespace Token

/-- The name of the kind of a token, whatever its text. -/
def kindName : Token → String
  | keyword word => word.kindName
  | primitive type => type.kindName
  | mark sign => sign.kindName
  | symbol => "Symbol"
  | integerLiteral => "IntLiteral"
  | floatLiteral => "FloatLiteral"
  | stringLiteral => "StringLiteral"
  | charLiteral => "CharLiteral"
  | upper _ => "UpperIdent"
  | lower _ => "LowerIdent"

/-- How messages speak of a token. -/
def describe : Token → String
  | upper name => "identifier '" ++ name ++ "'"
  | lower name => "identifier '" ++ name ++ "'"
  | integerLiteral => "number"
  | floatLiteral => "number"
  | stringLiteral => "string literal"
  | charLiteral => "character literal"
  | keyword word => word.kindName
  | primitive type => type.kindName
  | mark sign => sign.kindName
  | symbol => "Symbol"

end Token

/-- A token and the place where it stands in its source. -/
structure Lexeme where
  token : Token
  span : Text.Span
  deriving DecidableEq, Repr

end TarnBuild
