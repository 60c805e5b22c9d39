import Rebuild.Clean
import Rebuild.CommandLine
import Rebuild.Manifest.Load
import Rebuild.Scan
import Rebuild.Workshop

/-!
# The program

Carries out what a command line asks for, in a workshop. Everything but the version needs a manifest
that can be read.
-/

namespace Rebuild.Program

/-- The manifest that is read if none is named. -/
def defaultManifest : String := "build.ninja"

/-- The directory that is built in if none is named. -/
def defaultDirectory : String := "."

/-- How many commands run at once if nothing is said about it. -/
def defaultJobs : Nat := 8

/-- The version of the program. -/
def version : String := "0.1.0"

/-- Steps of the program. -/
abbrev Acting := EStateM Error Workshop

def print (text : String) : Acting Unit :=
  modify (Workshop.host.printOut (Utf8.encode text.toList))

/-- Reads the manifest. -/
def loadGraph (manifest : String) : Acting Graph := fun w =>
  match Manifest.load w.files (Path.canonical manifest) with
  | .ok g => .ok g w
  | .error e => .error e w

/-- Takes a value, or fails. -/
def orFail {α : Type} (result : Except Error α) : Acting α :=
  match result with
  | .ok a => return a
  | .error e => throw e

/-- What a scan found out, and the validations to build with the targets. -/
def scan (g : Graph) (log : BuildLog) (targets : List NodeId) : Acting (List NodeId × Scan) :=
  fun w => match Scan.all ⟨w.files, log⟩ targets (Scan.start g default) with
    | .ok validations found => .ok (validations, found) w
    | .error e _ => .error e w

/-- The schedule of a build of targets and validations. -/
def schedule (found : Scan) (targets validations : List NodeId) : Except Error Schedule := do
  let s ← (Schedule.start found.survey).addTargets found.graph targets
  s.addTargets found.graph validations

/-- Builds targets. -/
def build (g : Graph) (targets : List String) (jobs : Nat) (verbose : Bool) : Acting Unit := do
  let log := (← get).loadLog ((← get).pathOf BuildLog.fileName)
  let targets ← orFail (Targets.resolve g targets)
  let (validations, found) ← scan g log targets
  let schedule ← orFail (schedule found targets validations)
  let settings : Build.Settings Workshop := ⟨Workshop.host, found.graph, max jobs 1, verbose⟩
  fun w => match Build.run settings ⟨schedule, ⟨log, w⟩⟩ with
    | .ok _ b => .ok () b.kept.place
    | .error e b => .error e b.kept.place

/-- Cleans targets. -/
def clean (g : Graph) (targets : List String) : Acting Nat := fun w =>
  match Clean.run g targets w.scene.stamp w.here w.directory w.scene.tree with
  | .ok removed tree => .ok removed (w.setTree tree)
  | .error e tree => .error e (w.setTree tree)

/-- Carries out a request. -/
def carryOut (invocation : Invocation) : Acting Unit := do
  let graph := loadGraph (invocation.file.getD defaultManifest)
  match invocation.request.getD (.build []) with
  | .build targets =>
    build (← graph) targets (invocation.jobs.getD defaultJobs) invocation.verbose
  | .targets all =>
    for (path, rule) in Targets.list (← graph) all do
      print (path ++ ": " ++ rule ++ "\n")
  | .clean targets =>
    let removed ← clean (← graph) targets
    print ("Cleaning... " ++ toString removed ++ " files.\n")
  | .commands targets =>
    for command in ← orFail (Targets.commands (← graph) targets) do
      print (command ++ "\n")
  | .version => print (version ++ "\n")

/-- Carries out an invocation in a scene, starting from a place. -/
def run (invocation : Invocation) (here : Place) (scene : Shell.Scene) :
    Except Error Unit × Shell.Scene :=
  match carryOut invocation (.start here (invocation.dir.getD defaultDirectory) scene) with
  | .ok _ w => (.ok (), w.scene)
  | .error e w => (.error e, w.scene)

/-- Runs the program with command line words, and tells the status with which it ends. It has none if
it runs out of stack, which stops it on the spot. -/
def exec (words : List String) (here : Place) (scene : Shell.Scene) : Option Nat × Shell.Scene :=
  match CommandLine.parse words with
  | .error .versionWanted =>
    (some 0, scene.write Shell.Scene.terminalOut (Utf8.encode ("knit " ++ version ++ "\n").toList))
  | .error fault => (some fault.exitCode, scene)
  | .ok invocation =>
    match run invocation here scene with
    | (.ok _, scene) => (some 0, scene)
    | (.error (.nestedTooDeeply _), scene) => (none, scene)
    | (.error e, scene) =>
      (some 1, scene.write Shell.Scene.terminalError (Utf8.encode (e.report ++ "\n").toList))

end Rebuild.Program
