import Rebuild.Shell.Execution

/-!
# Surroundings

The file tree in which commands find what they expect to be there: devices, a place for passing files,
and the programs of the toolbox. A command line begins in a process of its own.
-/

namespace Rebuild.Shell

/-- The programs that stand in the file tree. -/
def programNames : List String :=
  Run.shellNames ++ Toolbox.tools.map (·.1)

/-- A file tree with nothing but devices and programs. -/
def surroundings (time : Timestamp) : FileTree :=
  let directory : Entry := .directory time FileTree.directoryMode
  let directories : List Place := [["tmp"], ["dev"], ["usr"], ["usr", "bin"], ["root"], ["etc"]]
  let programs := programNames.map fun name => (["usr", "bin", name], Entry.program name)
  ⟨directories.map (·, directory) ++
    [(["bin"], .link "usr/bin"), (["dev", "null"], .device .empty), (["dev", "zero"], .device .zeros),
      (["dev", "random"], .device .zeros), (["dev", "urandom"], .device .zeros),
      (["dev", "full"], .device .full), ([], directory)] ++ programs, default⟩

/-- The variables with which a command line begins. -/
def environment : Bindings Variable :=
  let bind (vars : Bindings Variable) (entry : String × String) : Bindings Variable :=
    vars.bind entry.1 ⟨some entry.2, true, false⟩
  [("PATH", "/usr/local/sbin:/usr/local/bin:/usr/sbin:/usr/bin:/sbin:/bin"), ("HOME", "/root")].foldl
    bind ∅

/-- The permissions that new files do not get unless something else is said. -/
def usualMask : Nat := 0o022

/-- Adds a process that runs a command line in a directory, without input, with its output and its
complaints leading to two pipes. -/
def begin (text : String) (here : Place) (out err : PipeId) (s : Scene) :
    Pid × Scene × (Scene → Activity Scene) :=
  let pid := s.nextPid
  let (input, s) := s.addOpened (.device .empty)
  let (output, s) := s.addOpened (.sink out)
  let (complaints, s) := s.addOpened (.sink err)
  let process : Process := { Run.noProcess with
    here := here
    descriptors := [(0, input), (1, output), (2, complaints)]
    mask := usualMask
    name := "sh"
    vars := environment }
  (pid, { s with processes := s.processes ++ [(pid, process)], nextPid := pid + 1 },
    Run.asProcess pid (Run.commandLine text))

end Rebuild.Shell
