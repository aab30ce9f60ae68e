import TarnBuild.Name.Set
import TarnBuild.Syntax.Construct

/-!
# Compilation units

A compilation unit is what one source declares: the set of the names that it
imports and exactly one construct.  The unit is known by the name of that
construct.
-/

namespace TarnBuild

/-- The content of one source. -/
structure CompilationUnit where
  imports : NameSet
  body : Construct
  deriving Repr

namespace CompilationUnit

/-- The name that a unit declares, which is that of its construct. -/
def declaredName (unit : CompilationUnit) : String :=
  unit.body.name

end CompilationUnit

/-- The shape of the program root: a module or a class around the other units. -/
inductive Surface where
  | moduleSurface
  | classSurface
  deriving DecidableEq, Repr

namespace Surface

/-- The kind of construct that a surface makes of the program root. -/
def rootKind : Surface → ConstructKind
  | moduleSurface => .moduleKind
  | classSurface => .classKind

/-- The word for the kind of the program root. -/
def word (surface : Surface) : String :=
  surface.rootKind.word

end Surface

end TarnBuild
