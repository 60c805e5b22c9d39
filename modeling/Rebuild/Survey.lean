import Rebuild.Graph
import Rebuild.Table
import Rebuild.Timestamp

/-!
# What is known about files and edges

A survey notes for each node whether its file exists, how new it is and whether it is stale, and for
each edge how far it was looked at and whether its outputs can be used. Before anything was looked
at, everything is unknown.
-/

namespace Rebuild

/-- Whether a file exists, as far as is known. -/
inductive Existence where
  | unknown
  | missing
  | present
deriving DecidableEq, Repr

/-- What is known about a file. -/
structure NodeState where
  existence : Existence
  mtime : Option Timestamp
  dirty : Bool
deriving DecidableEq, Repr

instance : Inhabited NodeState := ⟨⟨.unknown, none, false⟩⟩

namespace NodeState

def isStatted (n : NodeState) : Bool := n.existence ≠ .unknown

/-- The state after the file was looked at. -/
def withStat (n : NodeState) (mtime : Option Timestamp) : NodeState :=
  { n with existence := if mtime.isSome then .present else .missing, mtime := mtime }

end NodeState

/-- How far an edge was looked at. -/
inductive Visit where
  | unvisited
  | inProgress
  | done
deriving DecidableEq, Repr

/-- What is known about an edge. -/
structure EdgeState where
  visit : Visit
  outputReady : Bool
  depsLoaded : Bool
deriving DecidableEq, Repr

instance : Inhabited EdgeState := ⟨⟨.unvisited, false, false⟩⟩

/-- What is known about all files and edges. -/
structure Survey where
  nodes : Table NodeState
  edges : Table EdgeState
deriving Repr

namespace Survey

instance : Inhabited Survey := ⟨⟨default, default⟩⟩

def node (s : Survey) (id : NodeId) : NodeState := s.nodes.get id

def edge (s : Survey) (id : EdgeId) : EdgeState := s.edges.get id

def modifyNode (s : Survey) (id : NodeId) (f : NodeState → NodeState) : Survey :=
  { s with nodes := s.nodes.modify id f }

/-- Changes what is known about several files, one after the other. -/
def modifyNodes (s : Survey) (ids : List NodeId) (f : NodeState → NodeState) : Survey :=
  ids.foldl (fun s id => s.modifyNode id f) s

def modifyEdge (s : Survey) (id : EdgeId) (f : EdgeState → EdgeState) : Survey :=
  { s with edges := s.edges.modify id f }

theorem node_modifyNode (s : Survey) (m n : NodeId) (f : NodeState → NodeState) :
    (s.modifyNode m f).node n = if m = n then f (s.node m) else s.node n :=
  Table.get_modify ..

@[simp] theorem edge_modifyNode (s : Survey) (n : NodeId) (f : NodeState → NodeState) (e : EdgeId) :
    (s.modifyNode n f).edge e = s.edge e := rfl

theorem edge_modifyEdge (s : Survey) (d e : EdgeId) (f : EdgeState → EdgeState) :
    (s.modifyEdge d f).edge e = if d = e then f (s.edge d) else s.edge e :=
  Table.get_modify ..

@[simp] theorem node_modifyEdge (s : Survey) (e : EdgeId) (f : EdgeState → EdgeState) (n : NodeId) :
    (s.modifyEdge e f).node n = s.node n := rfl

@[simp] theorem edge_modifyNodes (s : Survey) (ids : List NodeId) (f : NodeState → NodeState)
    (e : EdgeId) : (s.modifyNodes ids f).edge e = s.edge e := by
  induction ids generalizing s with
  | nil => rfl
  | cons id ids ih => exact (ih (s.modifyNode id f)).trans rfl

theorem node_modifyNodes (s : Survey) (ids : List NodeId) {f : NodeState → NodeState}
    (hf : ∀ n, f (f n) = f n) (n : NodeId) :
    (s.modifyNodes ids f).node n = if n ∈ ids then f (s.node n) else s.node n := by
  induction ids generalizing s with
  | nil => simp [modifyNodes]
  | cons id ids ih =>
    have hstep := ih (s.modifyNode id f)
    rw [node_modifyNode] at hstep
    rw [modifyNodes, List.foldl_cons, ← modifyNodes, hstep]
    by_cases hid : id = n
    · subst hid; simp [hf]
    · simp [hid, Ne.symm hid]

/-- Whether a file can be used as it is: nothing makes it, or what makes it is ready. -/
def isAvailable (s : Survey) (g : Graph) (id : NodeId) : Bool :=
  match (g.node id).producer with
  | none => true
  | some producer => (s.edge producer).outputReady

/-- Whether all inputs of an edge can be used. -/
def inputsReady (s : Survey) (g : Graph) (id : EdgeId) : Bool :=
  (g.edge id).ins.all (s.isAvailable g)

end Survey

end Rebuild
