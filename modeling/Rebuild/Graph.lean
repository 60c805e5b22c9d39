import Rebuild.Scope

/-!
# The build graph

Nodes are files, named by their canonical paths, and edges are build statements. An edge keeps its
outputs and inputs in segments: explicit and implicit outputs; explicit, implicit and order-only
inputs. Each node knows the edge that produces it and the edges that use or are validated by it, in
the order in which they were linked; a node that an edge uses twice is linked twice.

Nodes, edges, rules and pools are numbered in order of creation and never removed.
-/

namespace Rebuild

abbrev NodeId := Nat

abbrev EdgeId := Nat

abbrev PoolId := Nat

/-- A file. -/
structure Node where
  path : String
  producer : Option EdgeId
  consumers : List EdgeId
  validates : List EdgeId
  /-- Known only from a dependency file. -/
  fromDepfile : Bool
deriving DecidableEq, Repr

namespace Node

/-- A file that no edge is linked to. -/
def ofPath (path : String) : Node := ⟨path, none, [], [], false⟩

instance : Inhabited Node := ⟨ofPath ""⟩

end Node

/-- A named recipe with variables. -/
structure Rule where
  name : String
  vars : Bindings Template
deriving DecidableEq, Repr

instance : Inhabited Rule := ⟨⟨"", ∅⟩⟩

/-- What an edge does: nothing but group files, or run the command of a rule. -/
inductive Recipe where
  | phony
  | rule (id : RuleId)
deriving DecidableEq, Repr

/-- A limit on how many edges run at once, depth 0 meaning no limit. -/
structure Pool where
  name : String
  depth : Nat
deriving DecidableEq, Repr

instance : Inhabited Pool := ⟨⟨"", 0⟩⟩

/-- A build statement. -/
structure Edge where
  recipe : Recipe
  pool : Option PoolId
  scope : ScopeId
  explicitOuts : List NodeId
  implicitOuts : List NodeId
  explicitIns : List NodeId
  implicitIns : List NodeId
  orderOnlyIns : List NodeId
  validations : List NodeId
  /-- The command line, once it has been settled. -/
  settledCommand : Option String
deriving DecidableEq, Repr

namespace Edge

/-- A statement that uses and makes nothing. -/
def bare (recipe : Recipe) (scope : ScopeId) : Edge :=
  ⟨recipe, none, scope, [], [], [], [], [], [], none⟩

instance : Inhabited Edge := ⟨bare .phony Scopes.root⟩

def isPhony (e : Edge) : Bool := e.recipe = .phony

/-- All outputs. -/
def outs (e : Edge) : List NodeId := e.explicitOuts ++ e.implicitOuts

/-- The inputs whose changes make the outputs stale. -/
def nonOrderOnlyIns (e : Edge) : List NodeId := e.explicitIns ++ e.implicitIns

/-- All inputs. -/
def ins (e : Edge) : List NodeId := e.nonOrderOnlyIns ++ e.orderOnlyIns

end Edge

/-- Everything that the manifest declares. -/
structure Graph where
  scopes : Scopes
  nodes : Array Node
  edges : Array Edge
  rules : Array Rule
  pools : Array Pool
  defaults : List NodeId
deriving Repr

namespace Graph

/-- The name of the pool whose edges use the terminal directly. -/
def consolePool : String := "console"

/-- The graph before any statement. The console pool, one edge deep, is always there. -/
def initial : Graph :=
  ⟨.initial, #[], #[], #[], #[⟨consolePool, 1⟩], []⟩

instance : Inhabited Graph := ⟨initial⟩

def node (g : Graph) (id : NodeId) : Node := g.nodes.getD id default

def edge (g : Graph) (id : EdgeId) : Edge := g.edges.getD id default

def rule (g : Graph) (id : RuleId) : Rule := g.rules.getD id default

def pool (g : Graph) (id : PoolId) : Pool := g.pools.getD id default

def edgeIds (g : Graph) : List EdgeId := List.range g.edges.size

def nodeIds (g : Graph) : List NodeId := List.range g.nodes.size

/-- The node of a path. -/
def findNode? (g : Graph) (path : String) : Option NodeId :=
  g.nodes.findIdx? (·.path = path)

/-- The node of a path, created if there is none. -/
def ensureNode (g : Graph) (path : String) : NodeId × Graph :=
  match g.findNode? path with
  | some id => (id, g)
  | none => (g.nodes.size, { g with nodes := g.nodes.push (.ofPath path) })

def addRule (g : Graph) (rule : Rule) : RuleId × Graph :=
  (g.rules.size, { g with rules := g.rules.push rule })

/-- The pool of a name. -/
def findPool? (g : Graph) (name : String) : Option PoolId :=
  g.pools.findIdx? (·.name = name)

/-- Declares a pool, unless there is one of that name. -/
def addPool? (g : Graph) (name : String) (depth : Nat) : Option (PoolId × Graph) :=
  match g.findPool? name with
  | some _ => none
  | none => some (g.pools.size, { g with pools := g.pools.push ⟨name, depth⟩ })

def modifyNode (g : Graph) (id : NodeId) (f : Node → Node) : Graph :=
  { g with nodes := g.nodes.modify id f }

def modifyEdge (g : Graph) (id : EdgeId) (f : Edge → Edge) : Graph :=
  { g with edges := g.edges.modify id f }

/-- The node with a link to an edge that uses it. -/
def linkConsumer (id : EdgeId) (g : Graph) (input : NodeId) : Graph :=
  g.modifyNode input fun n => { n with consumers := n.consumers ++ [id] }

/-- Adds an edge and links it to its nodes. Fails at the first output that has a producer already,
and then nothing changes. -/
def addEdge (g : Graph) (edge : Edge) : Except NodeId (EdgeId × Graph) :=
  match edge.outs.find? fun out => (g.node out).producer.isSome with
  | some out => .error out
  | none =>
    let id := g.edges.size
    let g := edge.outs.foldl (fun g out => g.modifyNode out ({ · with producer := some id })) g
    let g := edge.ins.foldl (linkConsumer id) g
    let g := edge.validations.foldl
      (fun g v => g.modifyNode v fun n => { n with validates := n.validates ++ [id] }) g
    .ok (id, { g with edges := g.edges.push edge })

/-- Adds an implicit input to an edge, after those it has. -/
def addImplicitIn (g : Graph) (id : EdgeId) (input : NodeId) : Graph :=
  let g := g.modifyEdge id fun e => { e with implicitIns := e.implicitIns ++ [input] }
  linkConsumer id g input

def addDefault (g : Graph) (target : NodeId) : Graph :=
  { g with defaults := g.defaults ++ [target] }

/-- The outputs that no edge uses. -/
def roots (g : Graph) : List NodeId :=
  ((g.edges.toList.flatMap Edge.outs).filter fun out => (g.node out).consumers.isEmpty).eraseDups

/-- The path of each node. -/
def paths (g : Graph) (ids : List NodeId) : List String :=
  ids.map fun id => (g.node id).path

/-! ## Variables of edges -/

/-- The variables that an edge sees: those of its statement, then those of its rule, then those of
the scopes around the statement. -/
def environment (g : Graph) (id : EdgeId) : Environment :=
  let e := g.edge id
  let ruleVars := match e.recipe with
    | .phony => []
    | .rule r => (g.rule r).vars.toList
  (g.scopes.get e.scope).vars.toList ++ ruleVars ++ g.scopes.environmentAround e.scope

/-- The value of a variable of an edge, empty if it is unbound. -/
def edgeVar (g : Graph) (id : EdgeId) (name : String) : String :=
  let env := g.environment id
  match env.find? name with
  | some value => value.eval env
  | none => ""

/-- Whether a variable of an edge has a value. -/
def edgeFlag (g : Graph) (id : EdgeId) (name : String) : Bool :=
  g.edgeVar id name ≠ ""

/-- The command line of an edge. -/
def command (g : Graph) (id : EdgeId) : String :=
  (g.edge id).settledCommand.getD (g.edgeVar id "command")

/-- The graph in which the command line of an edge no longer changes with its variables. -/
def settleCommand (g : Graph) (id : EdgeId) : Graph :=
  g.modifyEdge id ({ · with settledCommand := some (g.command id) })

/-- The name of the rule of an edge. -/
def ruleName (g : Graph) (id : EdgeId) : String :=
  match (g.edge id).recipe with
  | .phony => "phony"
  | .rule r => (g.rule r).name

end Graph

end Rebuild
