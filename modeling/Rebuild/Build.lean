import Rebuild.BuildLog
import Rebuild.CommandHash
import Rebuild.Path
import Rebuild.Schedule

/-!
# Building

A build carries out a schedule: it starts commands, waits for them to stop, and records in the build
log what they made. Where commands run, and in which order they stop, is up to a `Host`, of which a
build asks only that every command that was launched is reported once.

A command that fails keeps further commands from being started, but those that run already are
waited for and recorded. Only an output that cannot be looked at, or a build log that cannot be
written, ends a build at once.
-/

namespace Rebuild

/-- A command to run for an edge. The directories of its outputs are created first. The response
file exists while the command runs. -/
structure Job where
  edge : EdgeId
  command : String
  outputs : List String
  /-- The path of the response file and what it holds. -/
  responseFile : Option (String × String)
  /-- Whether the command uses the terminal directly. -/
  console : Bool
deriving DecidableEq, Repr

/-- What came of a command: it ended, with its output, or it could not be run. -/
inductive JobOutcome where
  | ended (success : Bool) (output : Bytes)
  | notRun (cause : Error)
deriving DecidableEq, Repr

/-- A command that stopped. -/
structure JobReport where
  edge : EdgeId
  started : Timestamp
  finished : Timestamp
  outcome : JobOutcome
deriving DecidableEq, Repr

/-- Where a build takes place. -/
structure Host (ω : Type) where
  files : ω → FileView
  logStore : LogStore ω
  launch : Job → ω → ω
  /-- Waits for the next command to stop. -/
  await : ω → Option JobReport × ω
  printOut : Bytes → ω → ω
  printError : Bytes → ω → ω

/-- The state of a build: its schedule, and the build log with the place where it all happens. -/
structure Build (ω : Type) where
  schedule : Schedule
  kept : BuildLog.Kept ω

/-- Steps of a build. -/
abbrev Building (ω : Type) := EStateM Error (Build ω)

namespace Build

variable {ω : Type}

/-- What stays the same during a build. -/
structure Settings (ω : Type) where
  host : Host ω
  graph : Graph
  /-- How many commands may run at once, at least one. -/
  jobs : Nat
  /-- Whether to print commands rather than their descriptions. -/
  verbose : Bool

/-- The response file that an edge asks for. -/
def responseFile? (g : Graph) (id : EdgeId) : Option (String × String) :=
  let path := g.edgeVar id "rspfile"
  if path = "" then none else some (Path.canonical path, g.edgeVar id "rspfile_content")

/-- The job of an edge. -/
def job (g : Graph) (id : EdgeId) : Job where
  edge := id
  command := g.command id
  outputs := g.paths (g.edge id).outs
  responseFile := responseFile? g id
  console := (g.edge id).pool.any fun pool => (g.pool pool).name = Graph.consolePool

/-- The line that announces a command. -/
def progressLine (set : Settings ω) (s : Schedule) (id : EdgeId) : String :=
  let description := set.graph.edgeVar id "description"
  let shown := if set.verbose || description = "" then set.graph.command id else description
  "[" ++ toString s.started ++ "/" ++ toString s.total ++ "] " ++ shown ++ "\n"

/-- What is printed about a command that failed. -/
def failureText (g : Graph) (id : EdgeId) (output : Bytes) : String :=
  "FAILED: " ++ " ".intercalate (g.paths (g.edge id).outs) ++ "\n" ++ g.command id ++ "\n" ++
    String.ofList (Utf8.decodeLossy output) ++ "\n"

def modifySchedule (f : Schedule → Schedule) : Building ω Unit :=
  modify fun b => { b with schedule := f b.schedule }

def modifyPlace (f : ω → ω) : Building ω Unit :=
  modify fun b => { b with kept := { b.kept with place := f b.kept.place } }

def print (set : Settings ω) (text : String) : Building ω Unit :=
  modifyPlace (set.host.printOut (Utf8.encode text.toList))

/-- Works on the build log and its place. -/
def withKept {α : Type} (act : EStateM Error (BuildLog.Kept ω) α) : Building ω α := fun b =>
  match act b.kept with
  | .ok a kept => .ok a { b with kept := kept }
  | .error e kept => .error e { b with kept := kept }

/-- Looks again at outputs that were just built. -/
def restatOutputs (set : Settings ω) : List NodeId → Building ω Unit
  | [] => return ()
  | out :: rest => do
    let b ← get
    let path := (set.graph.node out).path
    match (set.host.files b.kept.place).stat path with
    | .error fault => throw (.cannotStat path fault)
    | .ok mtime =>
      modifySchedule fun s => { s with
        survey := s.survey.modifyNode out fun n => { n.withStat mtime with dirty := false } }
    restatOutputs set rest

/-- How new an edge counts as for an output that was just built. With `restat` a command may leave
an output older than the inputs that made it run, and then the newest of these counts. -/
def recordedMtime (g : Graph) (survey : Survey) (id : EdgeId) (out : NodeId) : Option Timestamp :=
  let mtime := (survey.node out).mtime
  if g.edgeFlag id "restat" then
    (g.edge id).nonOrderOnlyIns.foldl
      (fun newest input => Timestamp.latest newest (survey.node input).mtime) mtime
  else mtime

/-- Records outputs in the build log. -/
def recordOutputs (set : Settings ω) (report : JobReport) : List NodeId → Building ω Unit
  | [] => return ()
  | out :: rest => do
    let b ← get
    let g := set.graph
    let mtime := recordedMtime g b.schedule.survey report.edge out
    let entry : LogEntry := ⟨report.started.toLog, report.finished.toLog,
      (mtime.map Timestamp.toLog).getD 0, CommandHash.ofCommand (g.command report.edge)⟩
    withKept (BuildLog.record set.host.logStore (g.node out).path entry)
    recordOutputs set report rest

/-- Takes in the report of a command that stopped. -/
def receive (set : Settings ω) (report : JobReport) : Building ω Unit := do
  let id := report.edge
  modifySchedule (·.stopped set.graph id)
  match report.outcome with
  | .ended true output =>
    modifyPlace (set.host.printOut output)
    let outs := (set.graph.edge id).outs
    restatOutputs set outs
    recordOutputs set report outs
    modifySchedule (·.finish set.graph id)
  | .ended false output =>
    modifySchedule Schedule.fail
    modifyPlace (set.host.printError (Utf8.encode (failureText set.graph id output).toList))
  | .notRun _ => modifySchedule Schedule.fail

/-- Starts the command of an edge. -/
def launch (set : Settings ω) (id : EdgeId) : Building ω Unit := do
  print set (progressLine set (← get).schedule id)
  modifyPlace (set.host.launch (job set.graph id))

/-- Waits for a command to stop. -/
def await (set : Settings ω) : Building ω (Option JobReport) := fun b =>
  let (report, place) := set.host.await b.kept.place
  .ok report { b with kept := { b.kept with place := place } }

/-- Decides what to do next. -/
def turn (set : Settings ω) : Building ω Schedule.Turn := fun b =>
  let (turn, schedule) := b.schedule.turn set.graph set.jobs
  .ok turn { b with schedule := schedule }

/-- Carries out at most `n` turns. -/
def turns (set : Settings ω) : (n : Nat) → Building ω Unit
  | 0 => return ()
  | n + 1 => do
    match ← turn set with
    | .over => return ()
    | .again => turns set n
    | .start id =>
      launch set id
      turns set n
    | .wait =>
      match ← await set with
      | none => return ()
      | some report =>
        receive set report
        turns set n

/-- Builds what is scheduled. Each edge is taken from the queue once and stops once, and so two
turns for each are enough. -/
def run (set : Settings ω) : Building ω Unit := do
  if (← get).schedule.ready.isEmpty then
    print set "knit: no work to do.\n"
    return ()
  turns set (2 * set.graph.edges.size + 1)
  let failed := (← get).schedule.failed
  if failed ≠ 0 then throw (.buildFailed failed)

end Build

end Rebuild
