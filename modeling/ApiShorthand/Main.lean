import ApiShorthand.Renderer.Script
import ApiShorthand.Run

/-!
# The program

The outer layer: it takes the files under the working directory into a file system, runs the program
on it, and brings the changes back to the disk. What else is on the disk is not seen. The run takes
any renderer; the ones that it gets here are those that `Script.launch` knows and the scripts below
the working directory.
-/

namespace ApiShorthand.Main

/-- How deep directories are read. -/
def maxDepth : Nat := 64

/-- The file tree of a file. One that starts like a script may be run. -/
def fileOf (content : ByteArray) : FileTree :=
  .file content.toList (content.toList.take 2 == Text.octetsOf ['#', '!'])

/-- The path that a link stands for in the end. A link to a free place tells its path only once a
file is there, so an empty one is made and taken away again. A link that leads to no place at all
has the empty path. -/
def targetOf (entry : IO.FS.DirEntry) : IO String := do
  try
    return (← IO.FS.realPath entry.path).toString
  catch _ =>
    try
      IO.FS.withFile entry.path .append fun _ => return
      let target ← IO.FS.realPath entry.path
      IO.FS.removeFile target
      return target.toString
    catch _ => return ""

/-- The file tree of a directory entry, if it is of a kind that matters. -/
def readEntry : (depth : Nat) → IO.FS.DirEntry → IO (Option FileTree)
  | 0, _ => return none
  | depth + 1, entry => do
    match (← entry.path.symlinkMetadata).type with
    | .file => return some (fileOf (← IO.FS.readBinFile entry.path))
    | .symlink => return some (.link (← targetOf entry))
    | .dir =>
      let entries ← (← entry.path.readDir).toList.filterMapM fun inner => do
        return (← readEntry depth inner).map fun tree => (inner.fileName, tree)
      return some (.directory entries)
    | .other => return none

/-- The names of the working directory from the root down. -/
def readHere : IO (List String) := do
  let path ← IO.FS.realPath (← IO.currentDir)
  return (FileSystem.components path.toString).filter fun name => !name.isEmpty

/-- The file system of the working directory. -/
def readSystem : IO FileSystem := do
  let here ← readHere
  let entries ← (← (← IO.currentDir).readDir).toList.filterMapM fun entry => do
    return (← readEntry maxDepth entry).map fun tree => (entry.fileName, tree)
  let system : FileSystem := { root := Script.surroundings, here }
  return system.put here (.directory entries)

/-- The file tree of the working directory. -/
def treeHere (system : FileSystem) : FileTree :=
  (system.root.get? system.here).getD .empty

/-- The path of names from the working directory. -/
def pathOf (names : List String) : String :=
  "/".intercalate names

/-- Whether a file or a link has to be removed for what stands in its place afterwards. -/
def isGone : (before : FileTree) → (after : Option FileTree) → Bool
  | .directory _, _ => false
  | .file _ _, some (.file _ _) => false
  | .link _, some (.link _) => false
  | _, _ => true

/-- Brings the changes from one file tree to another to the disk. Links can only be removed here, so
one that a renderer moves is lost. -/
def writeChanges (before after : FileTree) : IO Unit := do
  for (names, part) in before.walk do
    if isGone part (after.get? names) then
      IO.FS.removeFile (pathOf names)
  for names in before.directories.reverse do
    if !after.directories.contains names then
      IO.FS.removeDir (pathOf names)
  for names in after.directories do
    if !before.directories.contains names then
      IO.FS.createDirAll (pathOf names)
  let old := before.files
  for (names, content) in after.files do
    if old.lookup names != some content then
      IO.FS.writeBinFile (pathOf names) ⟨content.toArray⟩

end ApiShorthand.Main

open ApiShorthand in
/-- Runs the program on the working directory. -/
def main (arguments : List String) : IO UInt32 := do
  let environment : CommandLine.Environment :=
    ⟨← IO.getEnv "TINYSPEC_SOURCE", ← IO.getEnv "TINYSPEC_RENDERER"⟩
  let system ← Main.readSystem
  let exit := invoke Script.launch environment arguments system
  (← IO.getStdout).write ⟨exit.printed.toArray⟩
  Main.writeChanges (Main.treeHere system) (Main.treeHere exit.system)
  return UInt32.ofNat exit.status
