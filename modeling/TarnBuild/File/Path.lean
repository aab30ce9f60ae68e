/-!
# Paths

A path is a text in which slashes separate names.  A slash at the front makes
the path absolute.  A point names the directory itself and says nothing except
at the front of a path that is not absolute; two points name the directory
above.
-/

namespace TarnBuild.Path

/-- The pieces of a path between its slashes. -/
def pieces (path : String) : List String :=
  (path.toList.splitOn '/').map String.ofList

/-- The pieces without the empty ones that slashes at the end leave. -/
def withoutEndSlashes (pieces : List String) : List String :=
  (pieces.reverse.dropWhile (· == "")).reverse

/-- Whether a path starts at the root. -/
def isAbsolute (path : String) : Bool :=
  path.toList.head? == some '/'

/-- Whether a piece says nothing where it is not the first. -/
def isVoid (piece : String) : Bool :=
  piece == "" || piece == "."

/-- The pieces without those at the end that say nothing.  The first piece is
kept. -/
def withoutVoidEnd : List String → List String
  | [] => []
  | first :: rest => first :: (rest.reverse.dropWhile isVoid).reverse

/-- The pieces that name something: all but the empty first piece of a path that
is absolute or empty. -/
def meaningful (path : String) : List String :=
  match withoutVoidEnd (pieces path) with
  | "" :: rest => rest
  | all => all

/-- The last piece of a path, if it is a name. -/
def fileName? (path : String) : Option String :=
  match (meaningful path).getLast? with
  | none => none
  | some piece => if piece == "." || piece == ".." then none else some piece

/-- The path without its last piece, if it has one. -/
def parent? (path : String) : Option String :=
  if (meaningful path).isEmpty then
    none
  else
    match withoutVoidEnd (withoutVoidEnd (pieces path)).dropLast with
    | [] => some ""
    | [""] => some "/"
    | kept => some ("/".intercalate kept)

/-- The path of a name below a path. -/
def join (path name : String) : String :=
  if path == "" then name
  else if path.toList.getLast? == some '/' then path ++ name
  else path ++ "/" ++ name

/-- A name before its last point, and what stands after that point.  A point at
the front does not count. -/
def splitName (name : String) : String × Option String :=
  let reversed := name.toList.reverse
  let extension := (reversed.takeWhile (· != '.')).reverse
  let stem := (reversed.dropWhile (· != '.')).tail.reverse
  if stem.isEmpty then
    (name, none)
  else
    (String.ofList stem, some (String.ofList extension))

/-- The extension of a name, without the point. -/
def extension? (name : String) : Option String :=
  (splitName name).2

/-- A name without its extension. -/
def stem (name : String) : String :=
  (splitName name).1

end TarnBuild.Path
