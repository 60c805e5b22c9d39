import Rebuild.Depfile
import Rebuild.Error

/-!
# Loading dependency files

The variable `depfile` of an edge names the file in which its command reports what it read. Those
files become implicit inputs of the edge. Whatever is wrong with the dependency file is found before
the graph changes.
-/

namespace Rebuild.Depfile

/-- The dependency file at a path, given its contents. -/
def ofBytes (path : String) (bytes : Bytes) : Except Error Depfile :=
  match parse? (Utf8.decodeLossy bytes) with
  | none => .error (.depfileMissingColon path)
  | some depfile => .ok depfile

/-- Reads the dependency file at a path. -/
def read (files : FileView) (path : String) : Except Error Depfile :=
  match files.read path with
  | .error fault => .error (.cannotRead path fault)
  | .ok bytes => ofBytes path bytes

/-- The node of a dependency, created as known only from here if there is none. -/
def ensureDep (g : Graph) (path : String) : NodeId × Graph :=
  match g.findNode? path with
  | some id => (id, g)
  | none =>
    let (id, g) := g.ensureNode path
    (id, g.modifyNode id ({ · with fromDepfile := true }))

/-- Makes a dependency an implicit input of the edge, unless it is an input already. -/
def addDep (id : EdgeId) (g : Graph) (path : String) : Graph :=
  let (node, g) := ensureDep g path
  if (g.edge id).ins.contains node then g else g.addImplicitIn id node

/-- Loads the dependencies of an edge, if it has a dependency file. The first output that the file
names has to be an output of the edge; a file that names none has no dependencies. -/
def load (files : FileView) (g : Graph) (id : EdgeId) : Except Error Graph := do
  let written := g.edgeVar id "depfile"
  if written = "" then return g
  let path := Path.canonical written
  let depfile ← read files path
  match depfile.outputs with
  | [] => return g
  | output :: _ =>
    let outputs := g.paths (g.edge id).outs
    if !outputs.contains output then throw (.depfileMissingOutputs path outputs output)
    return depfile.deps.foldl (addDep id) g

end Rebuild.Depfile
