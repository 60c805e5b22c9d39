import Rebuild.Build
import Rebuild.Shell.Surroundings

/-!
# The workshop

The host of builds in this library: a file tree with a clock, in which the shell runs commands. A
strand is what is left of some work that waits. The clock only moves on when every strand waits, and
then to the time at which the first of them goes on; those that could go on at the same time take
turns.

A command is over when its shell has ended and nobody is left who could print something for it.
-/

namespace Rebuild

open Shell (Scene PipeId Pid Ending)

/-- Work that waits for a time to come or for something to become true. -/
structure Strand where
  due : Option Timestamp
  isReady : Scene → Bool
  resume : Scene → Activity Scene

/-- What became of a command: it runs in a process and prints to two pipes, unless it uses the
terminal, or it could not be run. -/
inductive Launch where
  | running (process : Pid) (pipes : Option (PipeId × PipeId))
  | failed (cause : Error)

/-- A command that was launched, and when. -/
structure Launched where
  job : Job
  started : Timestamp
  launch : Launch

/-- A file tree in which commands run. The directory of the build is named as seen from `here`. -/
structure Workshop where
  here : Place
  directory : String
  scene : Scene
  strands : List Strand
  launched : List Launched

namespace Workshop

/-- A workshop in which nothing runs. -/
def start (here : Place) (directory : String) (scene : Scene) : Workshop :=
  ⟨here, directory, scene, [], []⟩

/-- The path of a file of the build as seen from the workshop. -/
def pathOf (w : Workshop) (path : String) : String :=
  Path.join w.directory path

def setTree (w : Workshop) (tree : FileTree) : Workshop :=
  { w with scene := { w.scene with tree := tree } }

def files (w : Workshop) : FileView :=
  w.scene.tree.view w.here w.directory

/-! ## The build log -/

/-- Opens a log file. -/
def openLog (path : String) (replace : Bool) (w : Workshop) :
    Except IoFault ((LogHandle × Nat) × Workshop) :=
  match w.scene.tree.openPath w.scene.stamp w.here path ⟨some FileTree.fileMode, replace⟩ with
  | .ok (.file id, tree) => .ok ((id, (tree.body id).bytes.length), w.setTree tree)
  | .ok _ => .error (.other TreeFault.invalid.message)
  | .error fault => .error fault.toIoFault

/-- Adds bytes to a log file. -/
def appendLog (handle : LogHandle) (bytes : Bytes) (w : Workshop) : Except IoFault Workshop :=
  .ok (w.setTree (w.scene.tree.append w.scene.stamp handle bytes))

def logStore : LogStore Workshop where
  openFile := openLog
  append := appendLog

/-- The build log in a file. -/
def loadLog (w : Workshop) (path : String) : BuildLog :=
  BuildLog.ofFile path ((w.scene.tree.read w.here path).mapError TreeFault.toIoFault)

/-! ## Strands -/

/-- When a strand goes on if nothing else happens before, if ever. -/
def timeOf? (scene : Scene) (strand : Strand) : Option Timestamp :=
  if strand.isReady scene then some scene.now else strand.due.map (max scene.now)

/-- The first of the strands that go on earliest, with its time, and the others. -/
def takeEarliest (scene : Scene) : List Strand → Option (Timestamp × Strand × List Strand)
  | [] => none
  | first :: rest =>
    match timeOf? scene first, takeEarliest scene rest with
    | none, none => none
    | some time, none => some (time, first, rest)
    | none, some (time, other, others) => some (time, other, first :: others)
    | some time, some (otherTime, other, others) =>
      if otherTime < time then some (otherTime, other, first :: others) else some (time, first, rest)

/-- Adds what is left of an activity to the strands. -/
def addActivity (w : Workshop) : Activity Scene → Workshop
  | .over scene => { w with scene := scene }
  | .waiting nanos isReady scene resume =>
    { w with
      scene := scene
      strands := w.strands ++ [⟨nanos.map fun n => scene.now + n, isReady, resume⟩] }
  | .forked scene child next =>
    let strand : Strand := ⟨none, fun _ => true, child⟩
    addActivity { w with strands := w.strands ++ [strand] } (next scene)

/-- Lets the strand go on that can do so first, unless that is after a time limit. -/
def step? (limit : Option Timestamp) (w : Workshop) : Option Workshop :=
  match takeEarliest w.scene w.strands with
  | none => none
  | some (time, strand, others) =>
    if limit.any (· < time) then none
    else
      let scene := { w.scene with now := time }
      some (addActivity { w with scene := scene, strands := others } (strand.resume scene))

/-- Lets strands go on up to a time, at most `n` of them. -/
def advance (time : Timestamp) : (n : Nat) → Workshop → Workshop
  | 0, w => w
  | n + 1, w =>
    match w.step? (some time) with
    | some w => w.advance time n
    | none => { w with scene := { w.scene with now := max time w.scene.now } }

/-- How many turns strands take before the workshop gives up. -/
def maxTurns : Nat := 10000000

/-! ## Commands -/

/-- Changes the file tree, if that is possible. -/
def changing (w : Workshop) (fault : TreeFault → Error) (change : Except TreeFault FileTree) :
    Except Error Unit × Workshop :=
  match change with
  | .ok tree => (.ok (), w.setTree tree)
  | .error cause => (.error (fault cause), w)

/-- Creates the directories of outputs. -/
def makeDirectories (w : Workshop) : List String → Except Error Unit × Workshop
  | [] => (.ok (), w)
  | out :: rest =>
    let path := w.pathOf out
    match w.changing (fun cause => .cannotCreateDir path cause.toIoFault)
        (w.scene.tree.createAround w.scene.stamp w.here path) with
    | (.ok _, w) => w.makeDirectories rest
    | failed => failed

/-- Writes the response file of a job. -/
def writeResponse (w : Workshop) (job : Job) : Except Error Unit × Workshop :=
  match job.responseFile with
  | none => (.ok (), w)
  | some (path, contents) =>
    let path := w.pathOf path
    w.changing (fun cause => .cannotWrite path cause.toIoFault)
      (w.scene.tree.write w.scene.stamp w.here path (Utf8.encode contents.toList))

/-- Takes away the response file of a job. -/
def clearAway (w : Workshop) (job : Job) : Workshop :=
  match job.responseFile with
  | none => w
  | some (path, _) =>
    match w.scene.tree.remove w.scene.stamp w.here (w.pathOf path) with
    | .ok tree => w.setTree tree
    | .error _ => w

/-- The number of bytes that no command line reaches. -/
def commandLimit : Nat := 131072

/-- The directory in which a command line can run. -/
def placeFor (w : Workshop) (command : String) : Except TreeFault Place :=
  if command.toList.contains '\x00' then .error .invalid
  else if commandLimit ≤ command.utf8ByteSize then .error .invalid
  else
    match w.scene.tree.lookUp w.here (Path.join w.directory ".") with
    | .ok (place, .directory _ _) => .ok place
    | .ok _ => .error .notDirectory
    | .error fault => .error fault

/-- The pipes of a job, new ones unless it uses the terminal. -/
def pipesFor (job : Job) (scene : Scene) : Option (PipeId × PipeId) × Scene :=
  if job.console then (none, scene)
  else
    let (out, scene) := scene.addPipe true
    let (err, scene) := scene.addPipe true
    (some (out, err), scene)

/-- Begins a command at the next tick of the clock. -/
def launch (job : Job) (w : Workshop) : Workshop :=
  let w := w.advance (w.scene.stamp + Scene.tick) maxTurns
  let started := w.scene.now
  let add (w : Workshop) (launch : Launch) : Workshop :=
    { w with launched := w.launched ++ [⟨job, started, launch⟩] }
  match w.makeDirectories job.outputs with
  | (.error cause, w) => add w (.failed cause)
  | (.ok _, w) =>
    match w.writeResponse job with
    | (.error cause, w) => add w (.failed cause)
    | (.ok _, w) =>
      match w.placeFor job.command with
      | .error fault => add (w.clearAway job) (.failed (.cannotSpawn job.command fault.toIoFault))
      | .ok place =>
        let (pipes, scene) := pipesFor job w.scene
        let (out, err) := pipes.getD (Scene.terminalOut, Scene.terminalError)
        let (pid, scene, run) := Shell.begin job.command place out err scene
        add (addActivity { w with scene := scene } (run scene)) (.running pid pipes)

/-- Whether a command is over. -/
def isOver (scene : Scene) : Launch → Bool
  | .failed _ => true
  | .running pid none => !scene.isAlive pid
  | .running pid (some (out, err)) =>
    !scene.isAlive pid && !scene.hasWriter out && !scene.hasWriter err

/-- What became of a command that is over. -/
def outcomeOf (scene : Scene) : Launch → JobOutcome
  | .failed cause => .notRun cause
  | .running pid pipes =>
    let success := scene.ended.lookup pid = some (.exited 0)
    match pipes with
    | none => .ended success []
    | some (out, err) => .ended success (scene.written out ++ scene.written err)

/-- The report of a command that is over, after which its response file is gone. -/
def report (w : Workshop) (l : Launched) (others : List Launched) : JobReport × Workshop :=
  let cleared := match l.launch with
    | .running _ _ => w.clearAway l.job
    | .failed _ => w
  (⟨l.job.edge, l.started, w.scene.now, outcomeOf w.scene l.launch⟩,
    { cleared with launched := others })

/-- Takes the first command that is over. -/
def takeOver (scene : Scene) : List Launched → Option (Launched × List Launched)
  | [] => none
  | l :: rest =>
    if isOver scene l.launch then some (l, rest)
    else (takeOver scene rest).map fun (found, others) => (found, l :: others)

/-- Waits for a command to stop, while strands take at most `n` turns. A command that waits forever
counts as failed. -/
def awaitWithin : (n : Nat) → Workshop → Option JobReport × Workshop
  | n, w =>
    match takeOver w.scene w.launched with
    | some (l, others) =>
      let (report, w) := w.report l others
      (some report, w)
    | none =>
      match n, w.step? none, w.launched with
      | n + 1, some w, _ => awaitWithin n w
      | _, _, [] => (none, w)
      | _, _, l :: others =>
        let (report, w) := w.report l others
        (some { report with outcome := .ended false [] }, w)

/-- The workshop as a host. -/
def host : Host Workshop where
  files := files
  logStore := logStore
  launch := launch
  await := awaitWithin maxTurns
  printOut bytes w := { w with scene := w.scene.write Scene.terminalOut bytes }
  printError bytes w := { w with scene := w.scene.write Scene.terminalError bytes }

end Workshop

end Rebuild
