import TarnBuild.Syntax.TypeExpr

/-!
# Constructs

A construct is a module or a class with its own constants, functions and
nested constructs.  The expressions in it are kept as text.
-/

namespace TarnBuild

/-- Who may use a member. -/
inductive Visibility where
  | visible
  | hidden
  deriving DecidableEq, Repr

/-- A constant, with the text of its value. -/
structure Constant where
  name : String
  visibility : Visibility
  annotation : Option TypeExpr
  value : String
  deriving Repr, BEq

/-- A parameter of a function. -/
structure Parameter where
  name : String
  annotation : TypeExpr
  deriving Repr, BEq

/-- A function, with the text of its body. -/
structure Function where
  name : String
  visibility : Visibility
  typeParameters : List String
  parameters : List Parameter
  result : TypeExpr
  body : String
  deriving Repr, BEq

/-- The kinds of constructs. -/
inductive ConstructKind where
  | moduleKind
  | classKind
  deriving DecidableEq, Repr

/-- The word that introduces a construct of a kind. -/
def ConstructKind.word : ConstructKind → String
  | moduleKind => "module"
  | classKind => "class"

/-- A module or a class. -/
structure Construct where
  name : String
  kind : ConstructKind
  typeParameters : List String
  constants : List Constant
  functions : List Function
  nested : List Construct
  deriving Repr, BEq

namespace Construct

/-- A construct without type parameters and members. -/
def bare (name : String) (kind : ConstructKind) : Construct where
  name := name
  kind := kind
  typeParameters := []
  constants := []
  functions := []
  nested := []

/-- Whether a construct has neither constants nor functions of its own. -/
def hasNoOwnMembers (construct : Construct) : Bool :=
  construct.constants.isEmpty && construct.functions.isEmpty

/-- The names of the constructs directly inside a construct, in order. -/
def nestedNames (construct : Construct) : List String :=
  construct.nested.map Construct.name

end Construct

end TarnBuild
