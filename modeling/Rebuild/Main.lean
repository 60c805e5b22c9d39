import Rebuild.Program

/-!
# The command

Reads the directory that is built in, runs the program on it, prints what was printed, and writes
back what has changed. All decisions are the program's.
-/

namespace Rebuild.Main

/-- When a file was last changed. -/
def timeOf (found : IO.FS.Metadata) : Timestamp :=
  Timestamp.ofParts found.modified.sec found.modified.nsec.toNat

/-- What may be done with the files that are found. All of them can be run. -/
def foundMode : Nat := 0o755

/-- Adds what a directory entry stands for to a tree. -/
partial def load (tree : FileTree) (around : Place) (entry : IO.FS.DirEntry) : IO FileTree := do
  let place := around ++ [entry.fileName]
  let found ← entry.path.symlinkMetadata
  let time := timeOf found
  match found.type with
  | .dir =>
    let mut tree := tree.put place (.directory time FileTree.directoryMode)
    for inner in ← entry.path.readDir do
      tree ← load tree place inner
    return tree
  | .file =>
    let bytes ← IO.FS.readBinFile entry.path
    return (tree.setBody tree.freshId ⟨bytes.toList, time, foundMode⟩).put place (.file tree.freshId)
  | .symlink =>
    let target ← IO.FS.realPath entry.path
    return tree.put place (.link target.toString)
  | _ => return tree.put place (.device .empty)

/-- The path of a place. -/
def pathOf (place : Place) : String :=
  "/" ++ "/".intercalate place

/-- The tree with the directories from the root to a place. -/
def addAround (tree : FileTree) (now : Timestamp) (place : Place) : FileTree :=
  (List.range (place.length + 1)).foldl (fun tree n =>
    let outer := place.take n
    if tree.isDirectory outer then tree
    else tree.put outer (.directory now FileTree.directoryMode)) tree

/-- Writes an entry to the place where it belongs, if it is a file or a directory. -/
def save (tree : FileTree) (place : Place) : Entry → IO Unit
  | .file id => IO.FS.writeBinFile (pathOf place) (tree.body id).bytes.toByteArray
  | .directory _ _ => IO.FS.createDirAll (pathOf place)
  | _ => return ()

/-- Removes what was at a place. -/
def discard (place : Place) : Entry → IO Unit
  | .directory _ _ => IO.FS.removeDir (pathOf place)
  | _ => IO.FS.removeFile (pathOf place)

/-- Whether an entry says the same in two trees. -/
def isSame (before after : FileTree) (place : Place) (entry : Entry) : Bool :=
  match entry with
  | .file id => before.find? place = some entry && before.body id = after.body id
  | .directory _ _ => before.isDirectory place
  | _ => before.find? place = some entry

/-- Writes back what has changed: directories before what is in them, and files in the order in
which they were last changed, so that none becomes newer than another by being written later. -/
def saveChanges (before after : FileTree) : IO Unit := do
  let gone := before.entries.filter fun (place, _) => (after.find? place).isNone
  for (place, entry) in gone.mergeSort fun a b => b.1.length ≤ a.1.length do
    discard place entry
  let changed := after.entries.filter fun (place, entry) => !isSame before after place entry
  let (directories, files) := changed.partition (·.2.isDirectory)
  for (place, entry) in directories.mergeSort fun a b => a.1.length ≤ b.1.length do
    save after place entry
  for (place, entry) in files.mergeSort fun a b => decide (after.mtimeOf a.2 ≤ after.mtimeOf b.2) do
    save after place entry

/-- Adds a directory to a tree, if there is one, and tells its place. -/
def loadDirectory (now : Timestamp) (tree : FileTree) (directory : String) :
    IO (Place × FileTree) := do
  try
    let path ← IO.FS.realPath directory
    let place := FileTree.namesOf path.toString
    let mut tree := addAround tree now place
    for entry in ← path.readDir do
      tree ← load tree place entry
    return (place, tree)
  catch _ => return ([], tree)

/-- How far the clock of the program runs ahead. What is written back at the end of a build is then
older than the build log says, and does not count as changed after it. -/
def lead : Nat := 60000000000

/-- The time by the clock of the program, which the time of a new file tells. -/
def clock : IO Timestamp := do
  let (_, path) ← IO.FS.createTempFile
  let found ← path.metadata
  IO.FS.removeFile path
  return timeOf found + lead

/-- The directory that command line words name. -/
def directoryOf (words : List String) : String :=
  match CommandLine.parse words with
  | .ok invocation => invocation.dir.getD Program.defaultDirectory
  | .error _ => Program.defaultDirectory

/-- Prints what was written to a pipe. -/
def print (scene : Shell.Scene) (pipe : Shell.PipeId) (stream : IO.FS.Stream) : IO Unit := do
  stream.write (scene.written pipe).toByteArray
  stream.flush

/-- The status of a program that was stopped because it ran out of stack. -/
def stoppedStatus : Nat := 134

/-- Runs the program in the directory in which it was started. -/
def run (words : List String) : IO UInt32 := do
  let now ← clock
  let (here, tree) ← loadDirectory now (Shell.surroundings now) Program.defaultDirectory
  let (_, tree) ← loadDirectory now tree (directoryOf words)
  let (status, scene) := Program.exec words here (.start tree now)
  print scene Shell.Scene.terminalOut (← IO.getStdout)
  print scene Shell.Scene.terminalError (← IO.getStderr)
  saveChanges tree scene.tree
  return (status.getD stoppedStatus).toUInt32

end Rebuild.Main

def main (words : List String) : IO UInt32 :=
  Rebuild.Main.run words
