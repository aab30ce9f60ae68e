import TarnBuild.Build.Error
import TarnBuild.Config.Basic
import TarnBuild.Graph.Analysis

/-!
# Assembly of programs

The units of a build, each under its identifier, are put together into one
program root.  Identifiers must be the declared names, the name of the root is
reserved, every import must be a unit of the build, and imports must not go
round in a circle.  In the root every unit stands after all that it imports.
-/

namespace TarnBuild

/-- The units of a build under their identifiers. -/
abbrev Units := NameMap CompilationUnit

/-- How units are put together. -/
structure Assembler where
  surface : Surface
  rootName : String
  deriving DecidableEq, Repr

/-- The assembler that a configuration asks for. -/
def BuildConfig.assembler (config : BuildConfig) : Assembler where
  surface := config.build.surface
  rootName := config.build.rootName

/-- The library of the functions that a configuration declares. -/
def BuildConfig.runtimeLibrary (config : BuildConfig) :
    Except BuildError RuntimeLibrary :=
  (RuntimeLibrary.ofDeclarations config.runtime.functions).mapError .badLibrary

namespace Units

/-- The units and what they import, in the order of their identifiers. -/
def importGraph (units : Units) : Graph String where
  adjacency := units.entries.map fun entry => (entry.1, entry.2.imports.toList)
  distinct := by
    simpa [NameMap.keys, Function.comp_def] using units.nodup_keys

/-- Check that every unit declares the name that it is known by. -/
def checkNames (units : Units) : Except BuildError Unit :=
  match units.entries.find? fun entry => entry.1 ≠ entry.2.declaredName with
  | some (file, unit) => .error (.nameMismatch file unit.declaredName)
  | none => .ok ()

/-- Check that no unit has the name of the program root, neither as its
identifier nor as its declared name. -/
def checkReserved (units : Units) (rootName : String) : Except BuildError Unit :=
  match units.entries.find? fun entry =>
      entry.2.declaredName = rootName || entry.1 = rootName with
  | some (file, _) => .error (.reservedName file rootName)
  | none => .ok ()

/-- The identifiers in an order in which imports come first, found along a graph
that lists the units and their imports. -/
def orderAlong (graph : Graph String) : Except BuildError (List String) :=
  match graph.analyze with
  | .error edge => .error (.unresolvedImport edge.vertex edge.missing)
  | .ok (.cyclic cycle) => .error (.circularImports cycle)
  | .ok (.acyclic order) => .ok order

/-- The constructs of units in the order of their identifiers, which must list
each of them once and nothing else. -/
def bodiesInOrder (units : Units) : List String → Except BuildError (List Construct)
  | [] =>
      if units.entries.isEmpty then
        .ok []
      else
        .error (.internal (.unitsLeft units.keys))
  | identifier :: order =>
      match units.get? identifier with
      | none => .error (.internal (.unitMissing identifier))
      | some unit => do
          let others ← bodiesInOrder (units.erase identifier) order
          return unit.body :: others

/-- The identifiers in an order in which imports come first. -/
def compilationOrder (units : Units) : Except BuildError (List String) :=
  orderAlong units.importGraph

end Units

namespace Assembler

/-- The program root around some constructs. -/
def root (assembler : Assembler) (nested : List Construct) : Construct :=
  { Construct.bare assembler.rootName assembler.surface.rootKind with nested }

/-- Put units together in an order that is found along a graph that lists them
and their imports. -/
def assembleAlong (assembler : Assembler) (graph : Graph String) (units : Units) :
    Except BuildError Construct := do
  units.checkNames
  units.checkReserved assembler.rootName
  let order ← Units.orderAlong graph
  let bodies ← units.bodiesInOrder order
  return assembler.root bodies

/-- Put units together. -/
def assemble (assembler : Assembler) (units : Units) : Except BuildError Construct :=
  assembler.assembleAlong units.importGraph units

end Assembler

end TarnBuild
