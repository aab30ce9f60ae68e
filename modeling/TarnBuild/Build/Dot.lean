import TarnBuild.Build.Assembly

/-!
# Drawings of import graphs

The import graph of a build in the DOT language.  Its vertices are all
identifiers and all imported names, numbered from zero in increasing order, one
on each line; a line for each import follows, from the number of the unit to
the number of the imported name.  In the text of a label a quotation mark and a
backslash stand after a backslash, and a line feed is written as a mark.

The drawing is made along a graph that lists the units and their imports.  The
order in which this graph lists them makes no difference.
-/

namespace TarnBuild.Dot

/-- How a character is written inside a label. -/
def escapeChar : Char → List Char
  | '"' => ['\\', '"']
  | '\\' => ['\\', '\\']
  | '\n' => ['\\', 'l']
  | character => [character]

/-- The line of a vertex, with its name as the label. -/
def vertexLine (number : Nat) (name : String) : String :=
  "    " ++ toString number ++ " [ label = \"" ++
    String.ofList (name.toList.flatMap escapeChar) ++ "\" ]\n"

/-- The line of an edge between two numbered vertices. -/
def edgeLine (source target : Nat) : String :=
  "    " ++ toString source ++ " -> " ++ toString target ++ " [ ]\n"

/-- The vertices of a graph and the names to which its edges lead. -/
def names (graph : Graph String) : NameSet :=
  NameSet.ofList (graph.adjacency.flatMap fun entry => entry.1 :: entry.2)

/-- The edges of a graph, as pairs of numbers of names. -/
def edges (graph : Graph String) : List (Nat × Nat) :=
  let names := (names graph).toList
  names.flatMap fun source =>
    let targets := (graph.successors? source).getD []
    (targets.mergeSort fun first second => decide (first ≤ second)).map fun target =>
      (names.idxOf source, names.idxOf target)

/-- The drawing of a graph. -/
def renderAlong (graph : Graph String) : String :=
  let vertexLines := (names graph).toList.mapIdx vertexLine
  let edgeLines := (edges graph).map fun edge => edgeLine edge.1 edge.2
  "digraph \x7b\n" ++ String.join vertexLines ++ String.join edgeLines ++ "\x7d\n"

/-- The drawing of the import graph of some units. -/
def render (units : Units) : String :=
  renderAlong units.importGraph

end TarnBuild.Dot
