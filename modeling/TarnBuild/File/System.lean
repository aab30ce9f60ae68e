import TarnBuild.File.Path
import TarnBuild.Name.Map

/-!
# File systems

A file system is a tree of directories, files and symbolic links, together with
a working directory.  A path is followed from name to name; a symbolic link on
the way is replaced by its target, so often and no more.
-/

namespace TarnBuild

/-- What a name in a directory stands for. -/
inductive Node where
  | file (content : ByteArray)
  | directory (entries : List (String × Node))
  /-- A symbolic link to a path. -/
  | link (target : String)

/-- Why a file cannot be used. -/
inductive FileFault where
  | notFound
  | notDirectory
  | isDirectory
  | tooManyLinks
  | nameTooLong
  /-- The path holds a character that no name can hold. -/
  | nulInPath
  /-- The content is not the UTF-8 form of any text. -/
  | notText
  /-- The path does not end with a name. -/
  | noFileName
  /-- Sources are to be found below something that is no directory. -/
  | noSourceDirectory
  deriving DecidableEq, Repr

/-- The wording of a fault. -/
def FileFault.message : FileFault → String
  | notFound => "No such file or directory (os error 2)"
  | notDirectory => "Not a directory (os error 20)"
  | isDirectory => "Is a directory (os error 21)"
  | tooManyLinks => "Too many levels of symbolic links (os error 40)"
  | nameTooLong => "File name too long (os error 36)"
  | nulInPath => "file name contained an unexpected NUL byte"
  | notText => "stream did not contain valid UTF-8"
  | noFileName => "no file name"
  | noSourceDirectory => "not a directory"

namespace Node

/-- The node at the end of a list of names, without following links. -/
def at? : Node → List String → Option Node
  | node, [] => some node
  | directory entries, name :: rest =>
      match entries.lookup name with
      | some node => node.at? rest
      | none => none
  | _, _ :: _ => none

/-- The tree with a node at the end of a list of names, where missing
directories are made on the way. -/
def put (new : Node) : List String → Node → Node
  | [], _ => new
  | name :: rest, directory entries =>
      let old := (entries.lookup name).getD (directory [])
      directory (insertEntry name (put new rest old) entries)
  | _ :: _, node => node

/-- The tree without the node at the end of a list of names. -/
def erase : List String → Node → Node
  | [], node => node
  | [name], directory entries => directory (entries.filter (·.1 != name))
  | name :: next :: rest, directory entries =>
      match entries.lookup name with
      | some node => directory (insertEntry name (erase (next :: rest) node) entries)
      | none => directory entries
  | _ :: _, node => node

mutual

/-- The files below a directory, each as the list of names that leads to it.
They come in the order of the names in each directory, and links are not
followed. -/
def files : Node → List (List String)
  | directory entries =>
      ((filesOfEntries entries).mergeSort fun first second =>
        decide (first.1 ≤ second.1)).flatMap Prod.snd
  | _ => []

/-- The files that each entry of a directory is or holds, under its name. -/
def filesOfEntries : List (String × Node) → List (String × List (List String))
  | [] => []
  | (name, file _) :: rest => (name, [[name]]) :: filesOfEntries rest
  | (name, node) :: rest =>
      (name, node.files.map (name :: ·)) :: filesOfEntries rest

end

end Node

/-- A tree and a place in it. -/
structure FileSystem where
  root : Node
  /-- The names that lead from the root to the working directory. -/
  workingDirectory : List String

namespace FileSystem

/-- The greatest length of a name in bytes. -/
def nameLimit : Nat := 255

/-- Follow names from a place in a tree, through at most a given number of
links.  The answer is the place reached and the node there; only the last name
may lead to nothing. -/
def follow (root : Node) (links : Nat) (place names : List String) :
    Except FileFault (List String × Option Node) :=
  match names with
  | [] => .ok (place, root.at? place)
  | name :: rest =>
      match root.at? place with
      | none => .error .notFound
      | some (.file _) => .error .notDirectory
      | some (.link _) => .error .notFound
      | some (.directory entries) =>
          if Path.isVoid name then
            follow root links place rest
          else if name == ".." then
            follow root links place.dropLast rest
          else if nameLimit < name.utf8ByteSize then
            .error .nameTooLong
          else
            match entries.lookup name with
            | none =>
                if rest.isEmpty then .ok (place ++ [name], none) else .error .notFound
            | some (.link target) =>
                match links with
                | 0 => .error .tooManyLinks
                | links + 1 =>
                    follow root links (if Path.isAbsolute target then [] else place)
                      (Path.pieces target ++ rest)
            | some _ => follow root links (place ++ [name]) rest
termination_by (links, names.length)

/-- The number of links that are followed for one path. -/
def linkLimit : Nat := 40

/-- The greatest length of a path in bytes. -/
def pathLimit : Nat := 4095

/-- Follow names from the front of a path. -/
def followFrom (system : FileSystem) (path : String) (names : List String) :
    Except FileFault (List String × Option Node) :=
  if path.toList.contains '\x00' then
    .error .nulInPath
  else if path == "" then
    .error .notFound
  else if pathLimit < path.utf8ByteSize then
    .error .nameTooLong
  else
    follow system.root linkLimit
      (if Path.isAbsolute path then [] else system.workingDirectory) names

/-- The place that a path leads to, and the node there, if there is one. -/
def find (system : FileSystem) (path : String) :
    Except FileFault (List String × Option Node) :=
  system.followFrom path (Path.pieces path)

/-- The node that a path leads to, if there is one. -/
def node? (system : FileSystem) (path : String) : Option Node :=
  match system.find path with
  | .ok (_, node) => node
  | .error _ => none

/-- Whether a path leads to a directory. -/
def isDirectory (system : FileSystem) (path : String) : Bool :=
  match system.node? path with
  | some (.directory _) => true
  | _ => false

/-- Whether a path leads to a file. -/
def isFile (system : FileSystem) (path : String) : Bool :=
  match system.node? path with
  | some (.file _) => true
  | _ => false

/-- The text in the file that a path leads to. -/
def readText (system : FileSystem) (path : String) : Except FileFault String :=
  match system.find path with
  | .error fault => .error fault
  | .ok (_, some (.file content)) =>
      match String.fromUTF8? content with
      | some text => .ok text
      | none => .error .notText
  | .ok (_, some (.directory _)) => .error .isDirectory
  | .ok (_, _) => .error .notFound

/-- The file system with other content in the file that a path leads to.  The
file is made if it is missing, but its directory must be there.  A path with a
slash at the end can only be that of a directory. -/
def writeText (system : FileSystem) (path text : String) :
    Except FileFault FileSystem :=
  match system.followFrom path (Path.withoutEndSlashes (Path.pieces path)) with
  | .error fault => .error fault
  | .ok (_, some (.directory _)) => .error .isDirectory
  | .ok (place, _) =>
      if path.toList.getLast? == some '/' then
        .error .isDirectory
      else
        .ok { system with root := Node.put (.file text.toUTF8) place system.root }

/-- The place that a path names without regard to links. -/
def namedPlace (system : FileSystem) (path : String) : List String :=
  let names := (Path.pieces path).filter fun piece => !Path.isVoid piece
  if Path.isAbsolute path then names else system.workingDirectory ++ names

/-- The place that a path leads to as far as it leads anywhere. -/
def place (system : FileSystem) (path : String) : List String :=
  match system.find path with
  | .ok (place, _) => place
  | .error _ => system.namedPlace path

/-- The file system with a node at a path, where missing directories are made. -/
def install (system : FileSystem) (path : String) (node : Node) : FileSystem :=
  { system with root := Node.put node (system.place path) system.root }

/-- The file system with a directory at a path.  One that is there stays as it
is. -/
def makeDirectory (system : FileSystem) (path : String) : FileSystem :=
  if system.isDirectory path then system else system.install path (.directory [])

/-- The file system with a symbolic link at a path, which need not lead
anywhere. -/
def makeLink (system : FileSystem) (path target : String) : FileSystem :=
  { system with root := Node.put (.link target) (system.namedPlace path) system.root }

/-- The file system without what a path names. -/
def remove (system : FileSystem) (path : String) : FileSystem :=
  { system with root := Node.erase (system.namedPlace path) system.root }

end FileSystem

end TarnBuild
