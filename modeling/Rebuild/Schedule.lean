import Rebuild.Error
import Rebuild.Survey

/-!
# Scheduling edges

A schedule knows which edges a build still needs and how far each has come. An edge is registered
when something needs an output of it that cannot be used yet. A stale edge waits until all its
inputs can be used, is queued, and runs; an edge that is not stale itself is only waited for.
Whenever an edge finishes, those that wait for it are looked at again, and one that is not stale
finishes with the last of its inputs.

Pools bound how many of their edges run at once. An edge whose pool is full is set aside until an
edge of the pool stops running.

The schedule runs nothing. `turn` says what to do next, and `stopped`, `finish` and `fail` take in
what came of it, so that it can be followed through any order of events.
-/

namespace Rebuild

/-- How far a registered edge has come: it is not stale but something that it depends on is, it is
stale and waits for its inputs, or it is stale and was queued to run. -/
inductive Phase where
  | clean
  | waiting
  | queued
deriving DecidableEq, Repr

/-- What a pool holds: how many of its edges run, and those set aside, in the order of arrival. -/
structure PoolLoad where
  running : Nat
  delayed : List EdgeId
deriving DecidableEq, Repr

instance : Inhabited PoolLoad := ⟨⟨0, []⟩⟩

/-- The state of a build. -/
structure Schedule where
  survey : Survey
  phases : Table (Option Phase)
  ready : List EdgeId
  loads : Table PoolLoad
  running : List EdgeId
  /-- How many commands the build needs. -/
  total : Nat
  started : Nat
  failed : Nat
  missing : List MissingInput

namespace Schedule

/-- The schedule of a build that needs nothing. -/
def start (survey : Survey) : Schedule :=
  ⟨survey, default, [], default, [], 0, 0, 0, []⟩

def phase (s : Schedule) (id : EdgeId) : Option Phase :=
  s.phases.get id

def setPhase (s : Schedule) (id : EdgeId) (phase : Option Phase) : Schedule :=
  { s with phases := s.phases.set id phase }

/-- Queues an edge, unless that was done before. -/
def enqueue (s : Schedule) (id : EdgeId) : Schedule :=
  if s.phase id = some .queued then s
  else { s.setPhase id (some .queued) with ready := s.ready ++ [id] }

/-! ## What a build needs -/

/-- Notes that a file is needed that nothing makes. It is missing if it is stale; but one that only
a dependency file names does not have to exist. -/
def needLeaf (g : Graph) (neededBy : Option NodeId) (node : NodeId) (s : Schedule) : Schedule :=
  let n := g.node node
  if (s.survey.node node).dirty && !n.fromDepfile && s.missing.all (·.path ≠ n.path) then
    { s with missing := s.missing ++ [⟨n.path, neededBy.map fun id => (g.node id).path⟩] }
  else s

/-- Begins to wait for the inputs of a stale edge. -/
def expect (g : Graph) (id : EdgeId) (s : Schedule) : Schedule :=
  let s := s.setPhase id (some .waiting)
  let s := if (g.edge id).isPhony then s else { s with total := s.total + 1 }
  if s.survey.inputsReady g id then s.enqueue id else s

/-- Registers an edge whose output `node` is needed. -/
def register (g : Graph) (node : NodeId) (id : EdgeId) (s : Schedule) : Schedule :=
  let s := if (s.phase id).isNone then s.setPhase id (some .clean) else s
  if (s.survey.node node).dirty && s.phase id = some .clean then s.expect g id else s

/-- Makes a build need a file and, unless its producer was registered before, all that goes into it.
Each step inwards registers one more edge, so `depth` need not be more than the number of edges. -/
def want (g : Graph) : (depth : Nat) → (neededBy : Option NodeId) → NodeId → Schedule → Schedule
  | depth, neededBy, node, s =>
    match (g.node node).producer with
    | none => s.needLeaf g neededBy node
    | some id =>
      if (s.survey.edge id).outputReady then s
      else if (s.phase id).isSome then s.register g node id
      else match depth with
        | 0 => s.register g node id
        | depth + 1 => (g.edge id).ins.foldl (fun s input => want g depth (some node) input s)
            (s.register g node id)

/-- Makes a build need targets. -/
def addTargets (g : Graph) (targets : List NodeId) (s : Schedule) : Except Error Schedule :=
  let s := targets.foldl (fun s node => s.want g g.edges.size none node) s
  if s.missing.isEmpty then .ok s else .error (.missingInputs s.missing)

/-! ## Edges that finish -/

/-- Notes that the outputs of an edge can be used. -/
def conclude (s : Schedule) (id : EdgeId) : Schedule :=
  { s.setPhase id none with survey := s.survey.modifyEdge id ({ · with outputReady := true }) }

/-- The edges that use an output of an edge, in the order of its outputs. -/
def consumers (g : Graph) (id : EdgeId) : List EdgeId :=
  (g.edge id).outs.flatMap fun out => (g.node out).consumers

/-- Looks again at an edge that waits for an input. -/
def wake (g : Graph) (finish : EdgeId → Schedule → Schedule) (s : Schedule) (id : EdgeId) :
    Schedule :=
  match s.phase id with
  | none => s
  | some phase =>
    if !s.survey.inputsReady g id then s
    else if phase = .clean then finish id s
    else s.enqueue id

/-- Finishes an edge, and those that were only waiting for it. Each of them is no longer registered
then, so `depth` need not be more than the number of edges. -/
def finishWithin (g : Graph) : (depth : Nat) → EdgeId → Schedule → Schedule
  | 0, _, s => s
  | depth + 1, id, s => (consumers g id).foldl (wake g (finishWithin g depth)) (s.conclude id)

/-- Finishes an edge. -/
def finish (g : Graph) (id : EdgeId) (s : Schedule) : Schedule :=
  s.finishWithin g g.edges.size id

/-- Notes that a command failed. -/
def fail (s : Schedule) : Schedule :=
  { s with failed := s.failed + 1 }

/-! ## Pools -/

/-- The pool that bounds an edge, with its depth. Phony edges and pools of depth 0 have no bound. -/
def bound? (g : Graph) (id : EdgeId) : Option (PoolId × Nat) :=
  let e := g.edge id
  if e.isPhony then none
  else e.pool.bind fun pool =>
    let depth := (g.pool pool).depth
    if depth = 0 then none else some (pool, depth)

def modifyLoad (s : Schedule) (pool : PoolId) (f : PoolLoad → PoolLoad) : Schedule :=
  { s with loads := s.loads.modify pool f }

/-- Takes the first edge of a queue whose pool is not full, setting aside those before it. -/
def takeFrom (g : Graph) : List EdgeId → Schedule → Option EdgeId × Schedule
  | [], s => (none, { s with ready := [] })
  | id :: rest, s =>
    match bound? g id with
    | none => (some id, { s with ready := rest })
    | some (pool, depth) =>
      if (s.loads.get pool).running < depth then
        (some id, { s.modifyLoad pool (fun l => { l with running := l.running + 1 }) with
          ready := rest })
      else takeFrom g rest (s.modifyLoad pool fun l => { l with delayed := l.delayed ++ [id] })

/-- Takes the next edge that can run. -/
def takeReady (g : Graph) (s : Schedule) : Option EdgeId × Schedule :=
  takeFrom g s.ready s

/-- Gives back the place of an edge in its pool, and queues the edge that was set aside first. -/
def release (g : Graph) (id : EdgeId) (s : Schedule) : Schedule :=
  match bound? g id with
  | none => s
  | some (pool, _) =>
    let delayed := (s.loads.get pool).delayed
    let s := s.modifyLoad pool fun l => ⟨l.running - 1, delayed.tail⟩
    { s with ready := s.ready ++ delayed.head?.toList }

/-! ## Turns -/

/-- What to do next: look again, start the command of an edge, wait for a command to stop, or
nothing, the build being over. -/
inductive Turn where
  | again
  | start (id : EdgeId)
  | wait
  | over
deriving DecidableEq, Repr

/-- What to do when nothing can be started. -/
def rest (s : Schedule) : Turn :=
  if s.running.isEmpty then .over else .wait

/-- Decides what to do next, with at most `jobs` commands running. After a failure nothing is
started any more. A phony edge finishes as soon as its turn comes. -/
def turn (g : Graph) (jobs : Nat) (s : Schedule) : Turn × Schedule :=
  if s.running.length < jobs ∧ s.failed = 0 then
    match s.takeReady g with
    | (none, s) => (s.rest, s)
    | (some id, s) =>
      if (g.edge id).isPhony then (.again, s.finish g id)
      else (.start id, { s with running := s.running ++ [id], started := s.started + 1 })
  else (s.rest, s)

/-- Notes that the command of an edge no longer runs. -/
def stopped (g : Graph) (id : EdgeId) (s : Schedule) : Schedule :=
  { s with running := s.running.erase id }.release g id

end Schedule

end Rebuild
