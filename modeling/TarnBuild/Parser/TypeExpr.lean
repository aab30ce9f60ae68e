import TarnBuild.Parser.Basic

/-!
# Reading types

A type is a primitive type, a name with an optional list of arguments, or a
list in parentheses.  Such a list is the parameters of a function type when an
arrow follows it; otherwise it groups a single type, makes a tuple of several,
and without elements it is the unit type.
-/

namespace TarnBuild

/-- The type that a list in parentheses stands for. -/
def TypeExpr.group : List TypeExpr → TypeExpr
  | [] => .primitive .unit
  | [type] => type
  | elements => .tuple elements

namespace Parser

/-- Read a type from at most a given number of lexemes.  Where no lexeme is
left, the answer is the one for the end of the source. -/
def typeUpTo : Nat → Parser TypeExpr
  | 0 => nested (unexpected .type)
  | bound + 1 => nested do
      match ← peek with
      | some (.primitive type) =>
          advance
          return .primitive type
      | some (.upper name) =>
          advance
          if ← eat (.mark .less) then
            let arguments ← commaList (typeUpTo bound) .greater .commaOrAngle
            return .named name arguments
          else
            return .named name []
      | some (.mark .leftParen) =>
          advance
          let elements ← parenList (typeUpTo bound)
          if ← eat (.mark .arrow) then
            let result ← typeUpTo bound
            return .function elements result
          else
            return TypeExpr.group elements
      | _ => unexpected .type

/-- Read a type. -/
def type : Parser TypeExpr :=
  withRemaining typeUpTo

end Parser

end TarnBuild
