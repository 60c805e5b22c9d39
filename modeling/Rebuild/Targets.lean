import Rebuild.Error
import Rebuild.Path
import Rebuild.Reach

/-!
# Targets

What a graph is asked about: the targets that words on the command line stand for, the outputs that
can be built, and the commands that building them takes.
-/

namespace Rebuild.Targets

/-- The node of a target, by its canonical path. -/
def find (g : Graph) (target : String) : Except Error NodeId :=
  match g.findNode? (Path.canonical target) with
  | some node => .ok node
  | none => .error (.unknownTarget target)

/-- The targets that are asked for: those that are named, or else the defaults, or else all outputs
that nothing uses. -/
def resolve (g : Graph) (targets : List String) : Except Error (List NodeId) :=
  if !targets.isEmpty then targets.mapM (find g)
  else if !g.defaults.isEmpty then .ok g.defaults
  else .ok g.roots

/-- The outputs that nothing uses, or all outputs, with the names of their rules. -/
def list (g : Graph) (all : Bool) : List (String × String) :=
  let nodes := if all then g.edgeIds.flatMap fun id => (g.edge id).outs else g.roots
  nodes.filterMap fun node =>
    (g.node node).producer.map fun id => ((g.node node).path, g.ruleName id)

/-- The commands that building targets takes, those that others depend on first. -/
def commands (g : Graph) (targets : List String) : Except Error (List String) := do
  let edges := Reach.edges g (← resolve g targets)
  return (edges.filter fun id => !(g.edge id).isPhony).map g.command

end Rebuild.Targets
