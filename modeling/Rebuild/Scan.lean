import Rebuild.BuildLog
import Rebuild.CommandHash
import Rebuild.Depfile.Load
import Rebuild.Survey

/-!
# Finding what is stale

The scan walks from a target through the inputs of edges, each edge after all its inputs, and
decides which files are stale and which edges have usable outputs. A file that nothing makes is
stale if it does not exist. The outputs of an edge are stale together: if an input other than an
order-only one is stale, or if an output is missing, older than the newest of those inputs, was
built by another command, or was recorded when it was older than that.

Dependency files are loaded on the way; one that cannot be loaded is noted and otherwise ignored.
The walk stops at a dependency cycle and where a file cannot be looked at, and leaves what it found
until then.
-/

namespace Rebuild

/-- The state of a scan: the graph, which dependency files add to, what is known, the validations
met that are still to be scanned, the last one met at the end, and what was wrong with dependency
files. -/
structure Scan where
  graph : Graph
  survey : Survey
  validations : List NodeId
  depfileErrors : List Error

abbrev Scanning := EStateM Error Scan

namespace Scan

/-- What a scan looks at. -/
structure Sources where
  files : FileView
  log : BuildLog

def modifyNode (id : NodeId) (f : NodeState → NodeState) : Scanning Unit :=
  modify fun s => { s with survey := s.survey.modifyNode id f }

def modifyNodes (ids : List NodeId) (f : NodeState → NodeState) : Scanning Unit :=
  modify fun s => { s with survey := s.survey.modifyNodes ids f }

def modifyEdge (id : EdgeId) (f : EdgeState → EdgeState) : Scanning Unit :=
  modify fun s => { s with survey := s.survey.modifyEdge id f }

/-- Looks at a file, unless that was done before. Tells whether it looked. -/
def statOnce (files : FileView) (id : NodeId) : Scanning Bool := do
  let s ← get
  if (s.survey.node id).isStatted then return false
  let path := (s.graph.node id).path
  match files.stat path with
  | .error fault => throw (.cannotStat path fault)
  | .ok mtime =>
    modifyNode id (·.withStat mtime)
    return true

/-- Looks at files, one after the other. -/
def statAll (files : FileView) : List NodeId → Scanning Unit
  | [] => return ()
  | id :: rest => do
    let _ ← statOnce files id
    statAll files rest

/-- Scans a file that nothing makes. -/
def scanLeaf (files : FileView) (id : NodeId) : Scanning Unit := do
  if ← statOnce files id then
    modifyNode id fun n => { n with dirty := n.existence ≠ .present }

/-- Loads the dependency file of an edge. What is wrong with the file is noted. -/
def loadDeps (files : FileView) (id : EdgeId) : Scanning Unit := fun s =>
  match Depfile.load files s.graph id with
  | .ok graph => .ok () { s with graph := graph }
  | .error e => .error e { s with depfileErrors := s.depfileErrors ++ [e] }

/-- Loads the dependency file of an edge, unless that was tried before. The scan goes on without a
file that cannot be loaded. -/
def loadDepsOnce (files : FileView) (id : EdgeId) : Scanning Unit := do
  if ((← get).survey.edge id).depsLoaded then return ()
  modifyEdge id ({ · with depsLoaded := true })
  fun s => match loadDeps files id s with
    | .ok _ s | .error _ s => .ok () s

/-- The cycle that closes at `node`, whose producer `id` is being visited, given the nodes through
which the walk came, the last one first. It starts and ends with `node`, also where the walk met the
producer through another of its outputs. -/
def cycleAt (g : Graph) (stack : List NodeId) (node : NodeId) (id : EdgeId) : List String :=
  let outward := stack.reverse
  let first := (outward.findIdx? fun n => (g.node n).producer = some id).getD 0
  g.paths (node :: outward.drop (first + 1) ++ [node])

/-- What the inputs of an edge come to: whether one of them is stale, and how new the newest one is
that is not. -/
structure InputSummary where
  dirty : Bool
  newest : Option Timestamp
deriving DecidableEq, Repr

/-- The summary with one more input. -/
def InputSummary.add (sum : InputSummary) (n : NodeState) : InputSummary :=
  if n.dirty then { sum with dirty := true }
  else { sum with newest := Timestamp.latest sum.newest n.mtime }

/-- Scans the inputs of an edge with `visit`, and sums up those that are not order-only. -/
def scanInputs (visit : NodeId → Scanning Unit) (id : EdgeId) :
    List (NodeId × Bool) → InputSummary → Scanning InputSummary
  | [], sum => return sum
  | (input, orderOnly) :: rest, sum => do
    visit input
    let s ← get
    if !s.survey.isAvailable s.graph input then modifyEdge id ({ · with outputReady := false })
    let sum := if orderOnly then sum else sum.add (s.survey.node input)
    scanInputs visit id rest sum

/-- Whether an output of an edge is stale although no input is, `newest` being the time of the
newest input. -/
def isOutputStale (log : BuildLog) (g : Graph) (survey : Survey) (id : EdgeId)
    (newest : Option Timestamp) (out : NodeId) : Bool :=
  let n := survey.node out
  let restat := g.edgeFlag id "restat"
  let generator := g.edgeFlag id "generator"
  if n.existence ≠ .present then true
  else if !restat && Timestamp.isLater newest n.mtime then true
  else match log.find? (g.node out).path with
    | none => !generator
    | some entry =>
      (!generator && entry.commandHash ≠ CommandHash.ofCommand (g.command id)) ||
        match newest with
        | some time => entry.mtime < time.toLog
        | none => false

/-- Decides whether the outputs of an edge are stale. Those of a phony edge are as new as its newest
input, and stale only if an input is. -/
def judge (log : BuildLog) (id : EdgeId) (sum : InputSummary) : Scanning Bool := do
  if sum.dirty then return true
  let s ← get
  let e := s.graph.edge id
  if e.isPhony then
    if sum.newest.isSome then
      modifyNodes e.outs ({ · with mtime := sum.newest })
    return false
  return e.outs.any (isOutputStale log s.graph s.survey id sum.newest)

/-- Notes the outcome for an edge. The outputs of a phony edge without inputs are always usable. -/
def conclude (id : EdgeId) (dirty : Bool) : Scanning Unit :=
  modify fun s =>
    let e := s.graph.edge id
    let survey := s.survey.modifyNodes e.outs ({ · with dirty := dirty })
    let unusable := dirty && !(e.isPhony && e.ins.isEmpty)
    { s with survey := survey.modifyEdge id fun st =>
        { st with visit := .done, outputReady := st.outputReady && !unusable } }

/-- Scans an edge for the first time, its inputs with `visit`. -/
def scanEdge (src : Sources) (visit : NodeId → Scanning Unit) (id : EdgeId) : Scanning Unit := do
  modifyEdge id ({ · with visit := .inProgress, outputReady := true })
  statAll src.files ((← get).graph.edge id).outs
  loadDepsOnce src.files id
  let e := (← get).graph.edge id
  let inputs := e.nonOrderOnlyIns.map ((·, false)) ++ e.orderOnlyIns.map ((·, true))
  let sum ← scanInputs visit id inputs ⟨false, none⟩
  modify fun s => { s with validations := s.validations ++ e.validations }
  conclude id (← judge src.log id sum)

/-- Scans a node, having come through the nodes of `stack`. Each step inwards is to an edge that was
not visited before, so `depth` need not be more than the number of edges. -/
def visit (src : Sources) : (depth : Nat) → (stack : List NodeId) → NodeId → Scanning Unit
  | depth, stack, node => do
    let s ← get
    match (s.graph.node node).producer with
    | none => scanLeaf src.files node
    | some id =>
      match (s.survey.edge id).visit with
      | .done => return ()
      | .inProgress => throw (.dependencyCycle (cycleAt s.graph stack node id))
      | .unvisited =>
        match depth with
        | 0 => return ()
        | depth + 1 => scanEdge src (visit src depth (node :: stack)) id

/-- Scans a target. -/
def target (src : Sources) (node : NodeId) : Scanning Unit := do
  visit src (← get).graph.edges.size [] node

/-- Scans targets, one after the other. -/
def targets (src : Sources) : List NodeId → Scanning Unit
  | [] => return ()
  | node :: rest => do
    target src node
    targets src rest

/-- Takes the validation met last. -/
def popValidation : Scanning (Option NodeId) := fun s =>
  match s.validations.getLast? with
  | none => .ok none s
  | some node => .ok (some node) { s with validations := s.validations.dropLast }

/-- Scans validations until none is left, in at most `n` steps. Those in `known` need no scan. -/
def validate (src : Sources) (known : List NodeId) : (n : Nat) → (found : List NodeId) →
    Scanning (List NodeId)
  | 0, found => return found
  | n + 1, found => do
    match ← popValidation with
    | none => return found
    | some node =>
      if found.contains node || known.contains node then validate src known n found
      else
        target src node
        validate src known n (found ++ [node])

/-- The number of validations of all edges. -/
def validationCount (g : Graph) : Nat :=
  (g.edges.toList.map (·.validations.length)).foldl (· + ·) 0

/-- Scans targets and all validations that come with them, and tells the validations. Every edge is
met once, so there are no more steps than validations. -/
def all (src : Sources) (nodes : List NodeId) : Scanning (List NodeId) := do
  targets src nodes
  let s ← get
  validate src nodes (s.validations.length + validationCount s.graph + 1) []

/-- A scan of a graph about which something may be known. -/
def start (g : Graph) (survey : Survey) : Scan := ⟨g, survey, [], []⟩

end Scan

end Rebuild
