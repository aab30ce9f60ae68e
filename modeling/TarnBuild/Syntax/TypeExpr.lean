/-!
# Types

The types that an annotation can name, and their written form.  Arguments and
elements are separated by a comma and a space, a function type puts its
parameters in parentheses before an arrow, and a named type without arguments
is written without angle brackets.
-/

namespace TarnBuild

/-- The types that every program knows without declaring them. -/
inductive Primitive where
  | unit
  | int
  | float
  | bool
  | char
  | string
  deriving DecidableEq, Repr

namespace Primitive

/-- Every primitive type. -/
def all : List Primitive := [unit, int, float, bool, char, string]

/-- The word for a primitive type in a source. -/
def word : Primitive → String
  | unit => "unit"
  | int => "int"
  | float => "float"
  | bool => "bool"
  | char => "char"
  | string => "string"

/-- The primitive type with a word. -/
def ofWord? (text : String) : Option Primitive :=
  all.find? (·.word == text)

@[simp]
theorem ofWord?_word (primitive : Primitive) :
    ofWord? primitive.word = some primitive := by
  cases primitive <;> decide

end Primitive

/-- A type as an annotation gives it. -/
inductive TypeExpr where
  | primitive (type : Primitive)
  | named (name : String) (arguments : List TypeExpr)
  | tuple (elements : List TypeExpr)
  | function (parameters : List TypeExpr) (result : TypeExpr)
  deriving Repr, BEq

namespace TypeExpr

mutual

/-- The written form of a type. -/
def render : TypeExpr → String
  | primitive type => type.word
  | named name [] => name
  | named name (argument :: arguments) =>
      name ++ "<" ++ renderList (argument :: arguments) ++ ">"
  | tuple elements => "(" ++ renderList elements ++ ")"
  | function parameters result =>
      "(" ++ renderList parameters ++ ") -> " ++ render result

/-- The written forms of some types, separated by a comma and a space. -/
def renderList : List TypeExpr → String
  | [] => ""
  | [type] => render type
  | type :: next :: rest => render type ++ ", " ++ renderList (next :: rest)

end

mutual

/-- The number of types that are open at once in a type, itself included. -/
def height : TypeExpr → Nat
  | primitive _ => 1
  | named _ arguments => heightList arguments + 1
  | tuple elements => heightList elements + 1
  | function parameters result => max (heightList parameters) (height result) + 1

/-- The greatest height among some types. -/
def heightList : List TypeExpr → Nat
  | [] => 0
  | type :: rest => max (height type) (heightList rest)

end

end TypeExpr

end TarnBuild
