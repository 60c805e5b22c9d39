import Rebuild.Activity
import Rebuild.Bindings
import Rebuild.FileTree
import Rebuild.Shell.Command
import Rebuild.Text.Bytewise

/-!
# The scene

What commands share: the file tree, the clock, the pipes between them, and the processes in which they
run. A process has a directory, descriptors, and the state of the shell in it. Descriptors lead to
files, devices and the ends of pipes, and processes can share what they lead to.

A pipe has come to its end when it is empty and no process can write to it any more. Writing to a
pipe from which nobody can read ends a process.
-/

namespace Rebuild.Shell

abbrev PipeId := Nat

/-- The number of something that was opened. -/
abbrev OpenId := Nat

/-- The number of a process. -/
abbrev Pid := Nat

/-- Bytes on their way from writers to readers. -/
structure Pipe where
  front : Bytes
  /-- What was written after that, the last of it first. -/
  back : List Bytes
  size : Nat
  /-- Whether someone outside takes whatever is written. -/
  isDrained : Bool
deriving Repr

namespace Pipe

/-- All that is in a pipe. -/
def contents (p : Pipe) : Bytes :=
  if p.back.isEmpty then p.front else p.front ++ p.back.reverse.flatten

def push (p : Pipe) (bytes : Bytes) : Pipe :=
  { p with back := bytes :: p.back, size := p.size + bytes.length }

/-- Takes bytes from the front. -/
def take (p : Pipe) (limit : Nat) : Bytes × Pipe :=
  let all := p.contents
  (all.take limit, { p with front := all.drop limit, back := [], size := p.size - limit })

/-- Takes bytes up to the end of a line from the front. -/
def takeLine (p : Pipe) : Bytes × Pipe :=
  let all := p.contents
  let line := all.takeWhile (· ≠ 10)
  p.take (line.length + if line.length < all.length then 1 else 0)

/-- How much a pipe holds before those who write to it have to wait. -/
def capacity : Nat := 65536

end Pipe

instance : Inhabited Pipe := ⟨⟨[], [], 0, false⟩⟩

/-- What was opened: a file with the offset of what is read or written next, a directory, a device, or
an end of a pipe. -/
inductive Opened where
  | file (id : FileId) (offset : Nat) (appends : Bool)
  | directory (place : Place)
  | device (kind : Device)
  | source (pipe : PipeId)
  | sink (pipe : PipeId)
deriving DecidableEq, Repr

instance : Inhabited Opened := ⟨.device .empty⟩

/-- A variable of the shell. -/
structure Variable where
  value : Option String
  isExported : Bool
  isFixed : Bool
deriving DecidableEq, Repr

/-- A process with the shell in it. -/
structure Process where
  here : Place
  descriptors : List (Nat × OpenId)
  /-- The permissions that new files do not get. -/
  mask : Nat
  /-- By what name messages call the shell, and the builtin that runs. -/
  name : String
  builtin : Option String
  params : List String
  vars : Bindings Variable
  /-- What variables were before functions made them local, for each call. -/
  locals : List (List (String × Option Variable))
  functions : List (String × Command)
  aliases : List (String × String)
  options : List Char
  /-- What to do at the end, which has the number 0, and on signals. -/
  traps : List (Nat × String)
  /-- Signals that came in and have a trap. -/
  pending : List Nat
  status : Nat
  /-- The status of the script whose output was put into a word last. -/
  captured : Nat
  line : Nat
  /-- The line on which the function under way begins, or 0. -/
  firstLine : Nat
  /-- How many loops and how many calls are under way. -/
  loops : Nat
  calls : Nat
  /-- The number by which the shell knows itself. -/
  shellId : Pid
  lastBackground : Option Pid
  children : List Pid
  /-- The process under whose supervision this one runs, or 0. -/
  supervisor : Pid
  /-- How far into a group of options `getopts` has come. -/
  optionOffset : Nat

/-- How a process ended: by itself, or because of a signal. -/
inductive Ending where
  | exited (status : Nat)
  | killed (signal : Nat)
deriving DecidableEq, Repr

/-- The status that others see of a process that ended. -/
def Ending.status : Ending → Nat
  | exited status => status % 256
  | killed signal => 128 + signal

/-- What commands share. -/
structure Scene where
  tree : FileTree
  now : Timestamp
  opened : Table Opened
  pipes : Table Pipe
  /-- The pipes that stand in the file tree. -/
  queues : List (FileId × PipeId)
  processes : List (Pid × Process)
  ended : List (Pid × Ending)
  nextPid : Pid

namespace Scene

/-- The pipes that lead to the terminal. -/
def terminalOut : PipeId := 0

def terminalError : PipeId := 1

/-- A scene in which nothing was printed and nothing runs. -/
def start (tree : FileTree) (now : Timestamp) : Scene :=
  ⟨tree, now, default, ⟨#[⟨[], [], 0, true⟩, ⟨[], [], 0, true⟩]⟩, [], [], [], 4242⟩

/-- What was written to a pipe. -/
def written (s : Scene) (id : PipeId) : Bytes :=
  (s.pipes.get id).contents

/-- Writes to a pipe. -/
def write (s : Scene) (id : PipeId) (bytes : Bytes) : Scene :=
  { s with pipes := s.pipes.modify id (·.push bytes) }

/-- A new pipe. -/
def addPipe (s : Scene) (isDrained : Bool) : PipeId × Scene :=
  (s.pipes.cells.size, { s with pipes := s.pipes.set s.pipes.cells.size ⟨[], [], 0, isDrained⟩ })

/-- Something that was opened. -/
def addOpened (s : Scene) (opened : Opened) : OpenId × Scene :=
  (s.opened.cells.size, { s with opened := s.opened.set s.opened.cells.size opened })

/-- Lets time pass. -/
def passTime (s : Scene) (nanos : Nat) : Scene :=
  { s with now := s.now + nanos }

/-- The time between two ticks of the clock by which files are stamped. -/
def tick : Nat := 1000000

/-- The time that a file gets which is changed now. -/
def stamp (s : Scene) : Timestamp :=
  s.now - s.now % tick

def isAlive (s : Scene) (pid : Pid) : Bool :=
  s.processes.any (·.1 = pid)

/-- Ends a process. -/
def finish (s : Scene) (pid : Pid) (ending : Ending) : Scene :=
  if s.isAlive pid then
    { s with processes := s.processes.filter (·.1 ≠ pid), ended := (pid, ending) :: s.ended }
  else s

/-- Whether a process can use something that was opened. -/
def isInUse (s : Scene) (opened : Opened) : Bool :=
  s.processes.any fun (_, p) => p.descriptors.any fun (_, id) => s.opened.get id = opened

def hasReader (s : Scene) (pipe : PipeId) : Bool :=
  (s.pipes.get pipe).isDrained || s.isInUse (.source pipe)

def hasWriter (s : Scene) (pipe : PipeId) : Bool :=
  s.isInUse (.sink pipe)

end Scene

/-- How a command is left before its end: the shell ends, after an error or not, or a call, a loop or
a round of a loop does, or a signal ends the process. -/
inductive Leave where
  | exit (status : Nat)
  | fault (status : Nat)
  | returned (status : Nat)
  | leftLoop (loops : Nat)
  | nextRound (loops : Nat)
  | signal (number : Nat)
deriving DecidableEq, Repr

/-- How a process ends that a command leaves. -/
def Leave.ending : Leave → Ending
  | exit status | fault status | returned status => .exited status
  | leftLoop _ | nextRound _ => .exited 0
  | signal number => .killed number

/-- What a process does, given what comes after it and what comes when it is left early. -/
def Run (α : Type) : Type :=
  Pid → (α → Scene → Activity Scene) → (Leave → Scene → Activity Scene) → Scene → Activity Scene

namespace Run

instance : Monad Run where
  pure a := fun _ next _ => next a
  bind act f := fun pid next left => act pid (fun a => f a pid next left) left

instance : LawfulMonad Run :=
  LawfulMonad.mk' _ (fun _ => rfl) (fun _ _ => rfl) (fun _ _ _ => rfl)

instance : MonadExceptOf Leave Run where
  throw leave := fun _ _ left => left leave
  tryCatch act handle := fun pid next left => act pid next fun leave => handle leave pid next left

instance {α : Type} [Inhabited α] : Inhabited (Run α) := ⟨pure default⟩

/-! ## The scene and the process -/

def scene : Run Scene := fun _ next _ s => next s s

def modifyScene (f : Scene → Scene) : Run Unit := fun _ next _ s => next () (f s)

def pid : Run Pid := fun pid next _ => next pid

/-- A process that has nothing. -/
def noProcess : Process :=
  ⟨[], [], 0, "", none, [], ∅, [], [], [], [], [], [], 0, 0, 0, 0, 0, 0, 0, none, [], 0, 0⟩

/-- The process in which this runs. -/
def process : Run Process := fun pid next _ s =>
  next ((s.processes.lookup pid).getD noProcess) s

def modifyProcess (f : Process → Process) : Run Unit := fun pid next _ s =>
  next () { s with processes := s.processes.map fun (other, p) =>
    if other = pid then (other, f p) else (other, p) }

/-- Waits until the scene is ready, but at most for a time if one is given. A process that is ended
meanwhile does not go on. -/
def await (nanos : Option Nat) (isReady : Scene → Bool) : Run Unit := fun pid next _ s =>
  .waiting nanos (fun s => isReady s || !s.isAlive pid) s fun s =>
    if s.isAlive pid then next () s else .over s

def sleep (nanos : Nat) : Run Unit :=
  await (some nanos) fun _ => false

/-- Ends the shell. -/
def exit {α : Type} (status : Nat) : Run α :=
  throw (.exit status)

/-! ## Processes -/

/-- How long it takes before a new process begins to work. -/
def forkTime : Nat := 20000

/-- What a process does from its beginning to its end. -/
def asProcess (pid : Pid) (act : Run Nat) : Scene → Activity Scene :=
  act pid (fun status s => .over (s.finish pid (.exited status)))
    (fun leave s => .over (s.finish pid leave.ending))

/-- Starts a process that begins as a changed copy of this one. -/
def fork (setup : Process → Process) (act : Run Nat) : Run Pid := fun pid next _ s =>
  let child := s.nextPid
  let copy := setup ((s.processes.lookup pid).getD noProcess)
  let s := { s with
    processes := s.processes ++ [(child, { copy with children := [], pending := [] })]
    nextPid := child + 1 }
  .forked s (asProcess child do
    sleep forkTime
    act) (next child)

/-- Waits for a process to end, and tells how it ended. -/
def waitFor (child : Pid) : Run Ending := do
  if (← scene).isAlive child then await none fun s => !s.isAlive child
  modifyProcess fun p => { p with children := p.children.erase child }
  return ((← scene).ended.lookup child).getD (.exited 127)

/-! ## Descriptors -/

/-- What a descriptor leads to. -/
def opened? (descriptor : Nat) : Run (Option (OpenId × Opened)) := do
  let s ← scene
  return ((← process).descriptors.lookup descriptor).map fun id => (id, s.opened.get id)

/-- Makes a descriptor lead to something, or closes it. -/
def setDescriptor (descriptor : Nat) (target : Option OpenId) : Run Unit :=
  modifyProcess fun p =>
    let others := p.descriptors.filter (·.1 ≠ descriptor)
    { p with descriptors := (target.toList.map (descriptor, ·)) ++ others }

/-- Adds something that was opened. -/
def addOpened (opened : Opened) : Run OpenId := fun _ next _ s =>
  let (id, s) := s.addOpened opened
  next id s

/-- The process with a descriptor leading to something. -/
def withDescriptor (descriptor : Nat) (target : OpenId) (p : Process) : Process :=
  { p with descriptors := (descriptor, target) :: p.descriptors.filter (·.1 ≠ descriptor) }

/-- A new pipe: its reading end and its writing end. -/
def addPipe (isDrained : Bool) : Run (PipeId × OpenId × OpenId) := fun _ next _ s =>
  let (pipe, s) := s.addPipe isDrained
  let (source, s) := s.addOpened (.source pipe)
  let (sink, s) := s.addOpened (.sink pipe)
  next (pipe, source, sink) s

/-- The signal that ends a process which writes to a pipe without readers. -/
def brokenPipe : Nat := 13

/-- Writes to a pipe once it has room. -/
def writePipe (pipe : PipeId) (bytes : Bytes) : Run Unit := do
  let hasRoom (s : Scene) : Bool :=
    (s.pipes.get pipe).isDrained || (s.pipes.get pipe).size < Pipe.capacity
  if !hasRoom (← scene) then await none fun s => hasRoom s || !s.hasReader pipe
  if !(← scene).hasReader pipe then throw (.signal brokenPipe)
  modifyScene (·.write pipe bytes)

/-- Writes bytes to where a descriptor leads. -/
def writeBytes (descriptor : Nat) (bytes : Bytes) : Run (Except TreeFault Unit) := do
  match ← opened? descriptor with
  | none => return .error .notOpen
  | some (id, .file file offset appends) =>
    if bytes.isEmpty then return .ok ()
    modifyScene fun s =>
      let start := if appends then (s.tree.body file).bytes.length else offset
      { s with
        tree := s.tree.writeFrom s.stamp file start bytes
        opened := s.opened.set id (.file file (start + bytes.length) appends) }
    return .ok ()
  | some (_, .device .full) => return if bytes.isEmpty then .ok () else .error .noSpace
  | some (_, .device _) => return .ok ()
  | some (_, .sink pipe) =>
    if !bytes.isEmpty then writePipe pipe bytes
    return .ok ()
  | some (_, .directory _) | some (_, .source _) => return .error .notOpen

/-- Writes bytes to where a descriptor leads, if it leads anywhere. -/
def write (descriptor : Nat) (bytes : Bytes) : Run Unit := do
  let _ ← writeBytes descriptor bytes

/-- Prints text that has a character for each byte. -/
def say (text : String) : Run Unit :=
  write 1 (Bytewise.toBytes text.toList)

/-- Writes a line to where complaints go. -/
def complain (text : String) : Run Unit :=
  write 2 (Bytewise.toBytes (text ++ "\n").toList)

/-- Reads at most `limit` bytes from where a descriptor leads, waiting for some if there is nothing
yet. No bytes mean that there will be none. -/
def readSome (descriptor limit : Nat) : Run (Except TreeFault Bytes) := do
  match ← opened? descriptor with
  | none => return .error .notOpen
  | some (id, .file file offset appends) =>
    let bytes := (((← scene).tree.body file).bytes.drop offset).take limit
    modifyScene fun s =>
      { s with opened := s.opened.set id (.file file (offset + bytes.length) appends) }
    return .ok bytes
  | some (_, .directory _) => return .error .isDirectory
  | some (_, .device .empty) => return .ok []
  | some (_, .device _) => return .ok (List.replicate limit 0)
  | some (_, .source pipe) =>
    let isSettled (s : Scene) : Bool := 0 < (s.pipes.get pipe).size || !s.hasWriter pipe
    if !isSettled (← scene) then await none isSettled
    let (bytes, rest) := ((← scene).pipes.get pipe).take limit
    modifyScene fun s => { s with pipes := s.pipes.set pipe rest }
    return .ok bytes
  | some (_, .sink _) => return .error .notOpen

/-- How much is read at once. -/
def chunkSize : Nat := 65536

/-- How many bytes a process holds at most of what a pipe or a device gives. An input without an end is
cut off there. -/
def holdSize : Nat := 8388608

/-- Reads on in at most `n` chunks until there are `room` bytes, the chunks read before being the last
first. -/
def readOn (descriptor : Nat) : (n room : Nat) → (before : List Bytes) →
    Run (Except TreeFault Bytes)
  | 0, _, before => return .ok before.reverse.flatten
  | n + 1, room, before => do
    match ← readSome descriptor (min room chunkSize) with
    | .ok [] => return .ok before.reverse.flatten
    | .ok bytes => readOn descriptor n (room - bytes.length) (bytes :: before)
    | .error fault => return .error fault

/-- Reads the next bytes where a descriptor leads, as many as asked for if there are so many. -/
def readFront (descriptor count : Nat) : Run (Except TreeFault Bytes) :=
  readOn descriptor 100000 count []

/-- Reads all that is left where a descriptor leads. -/
def readAll (descriptor : Nat) : Run (Except TreeFault Bytes) := do
  match ← opened? descriptor with
  | some (_, .file file _ _) => readFront descriptor ((← scene).tree.body file).bytes.length
  | _ => readFront descriptor holdSize

/-- Reads on to the end of a line in at most `n` steps. -/
def readLineOn (descriptor : Nat) : (n : Nat) → (before : Bytes) → Run (Except TreeFault Bytes)
  | 0, before => return .ok before
  | n + 1, before => do
    match ← opened? descriptor with
    | some (id, .file file offset appends) =>
      let rest := ((← scene).tree.body file).bytes.drop offset
      let line := rest.takeWhile (· ≠ 10)
      let line := if line.length < rest.length then line ++ [10] else line
      modifyScene fun s =>
        { s with opened := s.opened.set id (.file file (offset + line.length) appends) }
      return .ok line
    | some (_, .source pipe) =>
      let isSettled (s : Scene) : Bool := 0 < (s.pipes.get pipe).size || !s.hasWriter pipe
      if !isSettled (← scene) then await none isSettled
      let (bytes, rest) := ((← scene).pipes.get pipe).takeLine
      modifyScene fun s => { s with pipes := s.pipes.set pipe rest }
      if bytes.isEmpty || bytes.getLast? = some 10 then return .ok (before ++ bytes)
      readLineOn descriptor n (before ++ bytes)
    | _ =>
      match ← readSome descriptor 1 with
      | .ok [] => return .ok before
      | .ok bytes =>
        if bytes = [10] then return .ok (before ++ bytes)
        readLineOn descriptor n (before ++ bytes)
      | .error fault => return .error fault

/-- Reads a line from where a descriptor leads, with its end if it has one. No bytes mean that there
is none. -/
def readLine (descriptor : Nat) : Run (Except TreeFault Bytes) :=
  readLineOn descriptor 100000 []

/-- Moves back by a number of bytes where a descriptor leads, if that is possible. -/
def unread (descriptor count : Nat) : Run Unit := do
  match ← opened? descriptor with
  | some (id, .file file offset appends) =>
    modifyScene fun s =>
      { s with opened := s.opened.set id (.file file (offset - count) appends) }
  | _ => return ()

/-! ## The file tree -/

/-- Looks something up in the file tree from the directory of the process. -/
def look {α : Type} (f : FileTree → Place → α) : Run α := do
  return f (← scene).tree (← process).here

/-- What a path leads to, seen from the directory of the process. -/
def lookUp (path : String) : Run (Except TreeFault (Place × Entry)) :=
  look fun tree here => tree.lookUp here (Bytewise.toText path)

/-- What a path names, which may be a link. -/
def lookAt (path : String) : Run (Except TreeFault (Place × Entry)) :=
  look fun tree here => tree.lookAt here (Bytewise.toText path)

/-- Changes the file tree from the directory of the process, if that is possible. -/
def change (f : FileTree → Timestamp → Place → Except TreeFault FileTree) :
    Run (Except TreeFault Unit) := do
  let s ← scene
  match f s.tree s.stamp (← process).here with
  | .ok tree =>
    modifyScene fun s => { s with tree := tree }
    return .ok ()
  | .error fault => return .error fault

/-- The descriptor that a path stands for. -/
def standardPath? (path : String) : Option Nat :=
  match path with
  | "/dev/stdin" => some 0
  | "/dev/stdout" => some 1
  | "/dev/stderr" => some 2
  | _ => if path.startsWith "/dev/fd/" then (path.drop 8).toNat? else none

/-- The pipe that a queue in the file tree is. -/
def queuePipe (file : FileId) : Run PipeId := do
  let s ← scene
  match s.queues.lookup file with
  | some pipe => return pipe
  | none =>
    let (pipe, s) := s.addPipe false
    modifyScene fun _ => { s with queues := (file, pipe) :: s.queues }
    return pipe

/-- Waits until there is someone at the other end of a pipe in the file tree. -/
def awaitPartner (id : OpenId) : Run Unit := do
  let s ← scene
  let isQueue (pipe : PipeId) : Bool := s.queues.any (·.2 = pipe)
  match s.opened.get id with
  | .source pipe => if isQueue pipe && !s.hasWriter pipe then await none (·.hasWriter pipe)
  | .sink pipe => if isQueue pipe && !s.hasReader pipe then await none (·.hasReader pipe)
  | _ => return ()

/-- Opens what a path leads to. -/
def openPath (path : String) (o : FileTree.Opening) (appends : Bool) :
    Run (Except TreeFault OpenId) := do
  if let some descriptor := standardPath? path then
    match (← process).descriptors.lookup descriptor with
    | some id => return .ok id
    | none => return .error .missing
  let s ← scene
  match s.tree.openPath s.stamp (← process).here (Bytewise.toText path) o with
  | .error fault => return .error fault
  | .ok (entry, tree) =>
    modifyScene fun s => { s with tree := tree }
    match entry with
    | .file id => return .ok (← addOpened (.file id 0 appends))
    | .directory _ _ =>
      match s.tree.resolve (← process).here (Bytewise.toText path) with
      | .ok place => return .ok (← addOpened (.directory place))
      | .error fault => return .error fault
    | .device kind => return .ok (← addOpened (.device kind))
    | .queue id =>
      let pipe ← queuePipe id
      return .ok (← addOpened (if o.create.isSome then .sink pipe else .source pipe))
    | .program _ | .link _ => return .ok (← addOpened (.device .empty))

/-- The permissions of a file that the process makes. -/
def newMode (mode : Nat) : Run Nat := do
  return mode &&& (0o7777 ^^^ (← process).mask)

/-- A descriptor that no script uses. -/
def spareDescriptor : Nat := 255

/-- What a path holds, and no more than the first bytes of it if a number of them is given. -/
def readPathWithin (count : Option Nat) (path : String) : Run (Except TreeFault Bytes) := do
  if let some descriptor := standardPath? path then
    match count with
    | some count => return ← readFront descriptor count
    | none => return ← readAll descriptor
  match ← lookUp path with
  | .error fault => return .error fault
  | .ok (_, .directory _ _) => return .error .isDirectory
  | .ok (_, .queue _) | .ok (_, .device _) =>
    match ← openPath path ⟨none, false⟩ false with
    | .error fault => return .error fault
    | .ok id =>
      setDescriptor spareDescriptor (some id)
      awaitPartner id
      let found ← readFront spareDescriptor (count.getD holdSize)
      setDescriptor spareDescriptor none
      return found
  | .ok (_, entry) =>
    let bytes := (← scene).tree.contentsOf entry
    return .ok (bytes.take (count.getD bytes.length))

/-- What a path holds. -/
def readPath (path : String) : Run (Except TreeFault Bytes) :=
  readPathWithin none path

end Run

end Rebuild.Shell
