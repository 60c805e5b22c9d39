import Rebuild.FileTree
import Rebuild.Targets

/-!
# Cleaning

Cleaning removes what a build would make again: outputs, response files and dependency files. Phony
edges make nothing, and what a generator makes is kept.
-/

namespace Rebuild.Clean

/-- Whether the files of an edge are removed. -/
def isCleaned (g : Graph) (id : EdgeId) : Bool :=
  !(g.edge id).isPhony && !g.edgeFlag id "generator"

/-- The files of an edge besides its outputs. -/
def extraPaths (g : Graph) (id : EdgeId) : List String :=
  ((["rspfile", "depfile"].map (g.edgeVar id)).filter (· ≠ "")).map Path.canonical

/-- The files that cleaning edges removes. -/
def paths (g : Graph) (edges : List EdgeId) : List String :=
  (edges.filter (isCleaned g)).flatMap fun id => g.paths (g.edge id).outs ++ extraPaths g id

/-- The edges that are cleaned for targets, all of them if no target is named. -/
def edges (g : Graph) (targets : List String) : Except Error (List EdgeId) :=
  if targets.isEmpty then .ok g.edgeIds
  else (Targets.resolve g targets).map (Reach.edges g)

/-- Removes files whose paths are meant relative to a directory, and tells how many there were. A
file that is missing already is passed over. -/
def removeAll (now : Timestamp) (here : Place) (directory : String) :
    List String → EStateM Error FileTree Nat
  | [] => return 0
  | path :: rest => do
    let full := Path.join directory path
    let removed ← fun tree => match tree.remove now here full with
      | .ok tree => .ok 1 tree
      | .error .missing => .ok 0 tree
      | .error fault => .error (.cannotRemove full fault.toIoFault) tree
    return removed + (← removeAll now here directory rest)

/-- Cleans targets, and tells how many files that removed. -/
def run (g : Graph) (targets : List String) (now : Timestamp) (here : Place) (directory : String) :
    EStateM Error FileTree Nat := do
  let edges ← fun tree => match edges g targets with
    | .ok edges => .ok edges tree
    | .error e => .error e tree
  removeAll now here directory (paths g edges)

end Rebuild.Clean
