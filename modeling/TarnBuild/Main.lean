import TarnBuild.Command.Run

/-!
# The command line program

The program looks at the part of the real file system that a command can use,
runs the command on that view, prints what it printed, and writes the file that
it wrote.  All decisions are made by the command.
-/

namespace TarnBuild.Main

/-- The node at a real path, or nothing if it cannot be read.  Links below a
directory are kept as links without a target, since they are not followed. -/
partial def observe (deep : Bool) (directory name : String) : IO (Option Node) := do
  let path := (← IO.currentDir) / directory / name
  if ← path.isDir then
    if deep then
      let mut entries := []
      for entry in ← path.readDir do
        let isLink := (← entry.path.symlinkMetadata).type matches .symlink
        let node ←
          if isLink then pure (some (Node.link ""))
          else observe deep (Path.join directory name) entry.fileName
        if let some node := node then
          entries := insertEntry entry.fileName node entries
      return some (.directory entries)
    else
      return some (.directory [])
  else if ← path.pathExists then
    return some (.file (← IO.FS.readBinFile path))
  else
    return none

/-- The paths of the directories that a path passes through. -/
def passedThrough (path : String) : List String :=
  let pieces := (Path.pieces path).dropLast
  (List.range pieces.length).filterMap fun count =>
    let passed := "/".intercalate (pieces.take (count + 1))
    if passed == "" then none else some passed

/-- The view with what is at a path. -/
def look (deep : Bool) (system : FileSystem) (path : String) : IO FileSystem := do
  let system ← (passedThrough path).foldlM (fun system passed => do
    match ← observe false "" passed with
    | some (.directory _) => return system.makeDirectory passed
    | some node => return system.install passed node
    | none => return system) system
  match ← observe deep "" path with
  | some node => return system.install path node
  | none => return system

/-- The paths that a command can use, and whether everything below them. -/
def usedPaths (workingPath : String) : Command → List (String × Bool)
  | .assemble path config _ output =>
      (path, true) :: (Path.join path configFileName, false) ::
        ((Path.parent? path).map fun parent => (Path.join parent configFileName, false)).toList ++
        (config.map (·, false)).toList ++ (output.map (·, false)).toList
  | .graph directory config =>
      [(directory, true), (Path.join directory configFileName, false)] ++
        (config.map (·, false)).toList
  | .runtime config => [(config.getD (Path.join workingPath configFileName), false)]

/-- The file that a command writes. -/
def outputPath? : Command → Option String
  | .assemble _ _ _ output => output
  | _ => none

end TarnBuild.Main

open TarnBuild in
/-- Run the command that the arguments ask for. -/
def main (arguments : List String) : IO UInt32 := do
  let names := ((Path.pieces (toString (← IO.currentDir))).filter fun name =>
    !Path.isVoid name)
  let empty : FileSystem := FileSystem.makeDirectory ⟨.directory [], names⟩ "."
  let command? := (Command.ofArguments arguments).toOption
  let used := (command?.map (Main.usedPaths (Command.workingPath empty))).getD []
  let system ← used.foldlM (fun system use => Main.look use.2 system use.1) empty
  let effect := Command.run system arguments
  (← IO.getStdout).putStr effect.stdout
  (← IO.getStderr).putStr effect.stderr
  if effect.code = 0 then
    if let some path := command?.bind Main.outputPath? then
      if let .ok text := effect.system.readText path then
        IO.FS.writeFile path text
  return effect.code.toUInt32
