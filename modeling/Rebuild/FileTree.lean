import Rebuild.Files
import Rebuild.Path
import Rebuild.Table

/-!
# File trees

A file tree maps places to what stands there: a file, a directory, a link, a device or a program. A
place is the list of names that lead to it from the root. What a file holds is kept apart from the
places where it stands, so that it can stand at several places, and be written to by those who
opened it even after it was moved.

Paths are resolved from a directory one component at a time, and everything but the last component
has to be a directory. A link stands for the path that it holds.

`find?_put` and `find?_erase` say what the two basic changes do to places, and `body_setBody` what a
change does to files; all others are made of them.
-/

namespace Rebuild

/-- The names that lead from the root to a place, the outermost first. -/
abbrev Place := List String

/-- The number of a file. -/
abbrev FileId := Nat

/-- What a file holds, when it was changed, and what may be done with it. -/
structure FileBody where
  bytes : Bytes
  mtime : Timestamp
  mode : Nat
deriving DecidableEq, Repr

instance : Inhabited FileBody := ⟨⟨[], 0, 0⟩⟩

/-- Devices: one that is empty and takes everything, one that is an endless row of zeros, and one
that takes nothing. -/
inductive Device where
  | empty
  | zeros
  | full
deriving DecidableEq, Repr

/-- What stands at a place. -/
inductive Entry where
  | file (id : FileId)
  | directory (mtime : Timestamp) (mode : Nat)
  | link (target : String)
  | queue (id : FileId)
  | device (kind : Device)
  | program (name : String)
deriving DecidableEq, Repr

namespace Entry

def isDirectory : Entry → Bool
  | directory _ _ => true
  | _ => false

/-- A file, or something that can be read and written like one. -/
def isFile : Entry → Bool
  | file _ | program _ => true
  | _ => false

def isLink : Entry → Bool
  | link _ => true
  | _ => false

end Entry

/-- Why an operation on a file tree failed. -/
inductive TreeFault where
  | missing
  | notDirectory
  | isDirectory
  | taken
  | notEmpty
  | invalid
  | nameTooLong
  | tooManyLinks
  | refused
  | noSpace
  | notOpen
deriving DecidableEq, Repr

namespace TreeFault

/-- The fault in words. -/
def message : TreeFault → String
  | missing => "No such file or directory"
  | notDirectory => "Not a directory"
  | isDirectory => "Is a directory"
  | taken => "File exists"
  | notEmpty => "Directory not empty"
  | invalid => "Invalid argument"
  | nameTooLong => "File name too long"
  | tooManyLinks => "Too many levels of symbolic links"
  | refused => "Permission denied"
  | noSpace => "No space left on device"
  | notOpen => "Bad file descriptor"

/-- The fault as those see it who only ask about files. -/
def toIoFault : TreeFault → IoFault
  | missing => .missing
  | fault => .other fault.message

end TreeFault

/-- A file tree, the first entry for a place being the one that counts. -/
structure FileTree where
  entries : List (Place × Entry)
  bodies : Table FileBody
deriving Repr

namespace FileTree

/-- The first entry for a place. -/
def findIn (place : Place) : List (Place × Entry) → Option Entry
  | [] => none
  | (other, entry) :: rest => if other = place then some entry else findIn place rest

/-- What stands at a place. -/
def find? (t : FileTree) (place : Place) : Option Entry :=
  findIn place t.entries

/-- The tree without a place. -/
def erase (t : FileTree) (place : Place) : FileTree :=
  { t with entries := t.entries.filter (·.1 ≠ place) }

/-- The tree with an entry at a place. -/
def put (t : FileTree) (place : Place) (entry : Entry) : FileTree :=
  { t with entries := (place, entry) :: (t.erase place).entries }

theorem find?_erase (t : FileTree) (place other : Place) :
    (t.erase place).find? other = if other = place then none else t.find? other := by
  obtain ⟨entries, bodies⟩ := t
  simp only [find?, erase]
  induction entries with
  | nil => simp [findIn]
  | cons entry rest ih => grind [findIn]

theorem find?_put (t : FileTree) (place other : Place) (entry : Entry) :
    (t.put place entry).find? other = if other = place then some entry else t.find? other := by
  have := find?_erase t place other
  unfold find? at *
  grind [put, findIn]

/-- What a file holds. -/
def body (t : FileTree) (id : FileId) : FileBody :=
  t.bodies.get id

/-- The tree in which a file is changed. -/
def setBody (t : FileTree) (id : FileId) (body : FileBody) : FileTree :=
  { t with bodies := t.bodies.set id body }

theorem body_setBody (t : FileTree) (id other : FileId) (body : FileBody) :
    (t.setBody id body).body other = if id = other then body else t.body other :=
  Table.get_set ..

@[simp] theorem find?_setBody (t : FileTree) (id : FileId) (body : FileBody) (place : Place) :
    (t.setBody id body).find? place = t.find? place := rfl

@[simp] theorem body_put (t : FileTree) (place : Place) (entry : Entry) (id : FileId) :
    (t.put place entry).body id = t.body id := rfl

@[simp] theorem body_erase (t : FileTree) (place : Place) (id : FileId) :
    (t.erase place).body id = t.body id := rfl

/-- A number that no file has. -/
def freshId (t : FileTree) : FileId :=
  t.bodies.cells.size

/-- What may be done with files and directories unless something else is said. -/
def fileMode : Nat := 0o644

def directoryMode : Nat := 0o755

/-- A tree that holds nothing but its root. -/
def empty (time : Timestamp) : FileTree :=
  ⟨[([], .directory time directoryMode)], default⟩

/-- The contents of what stands at a place. Only files have any. -/
def contentsOf (t : FileTree) : Entry → Bytes
  | .file id => (t.body id).bytes
  | _ => []

/-- When what stands at a place was changed. -/
def mtimeOf (t : FileTree) : Entry → Timestamp
  | .file id | .queue id => (t.body id).mtime
  | .directory time _ => time
  | .link _ | .device _ | .program _ => 0

/-- What may be done with what stands at a place. -/
def modeOf (t : FileTree) : Entry → Nat
  | .file id | .queue id => (t.body id).mode
  | .directory _ mode => mode
  | .link _ => 0o777
  | .device _ => 0o666
  | .program _ => 0o755

/-! ## Resolving paths -/

def isDirectory (t : FileTree) (place : Place) : Bool :=
  (t.find? place).any Entry.isDirectory

/-- Goes from a directory to one of its names. -/
def enter (t : FileTree) (here : Place) (name : String) : Except TreeFault Place :=
  match t.find? here with
  | none => .error .missing
  | some (.directory _ _) =>
    if 255 < name.utf8ByteSize then .error .nameTooLong
    else if name = "." then .ok here
    else if name = ".." then .ok here.dropLast
    else .ok (here ++ [name])
  | some _ => .error .notDirectory

/-- The names in a path. -/
def namesOf (path : String) : List String :=
  ((Path.components path.toList).filter (· ≠ [])).map String.ofList

/-- Where the walk along a path begins. -/
def startOf (here : Place) (path : String) : Place :=
  if Path.isAbsolute path.toList then [] else here

/-- Goes from a directory along names, following at most `links` links. A link at the end is
followed if `toEnd` holds. -/
def walk (t : FileTree) (links : Nat) (toEnd : Bool) (here : Place) (names : List String) :
    Except TreeFault Place :=
  match names with
  | [] => .ok here
  | name :: rest =>
    match t.enter here name with
    | .error fault => .error fault
    | .ok place =>
      match t.find? place with
      | some (.link target) =>
        if rest.isEmpty && !toEnd then .ok place
        else match links with
          | 0 => .error .tooManyLinks
          | links + 1 =>
            t.walk links toEnd (startOf place.dropLast target) (namesOf target ++ rest)
      | _ => t.walk links toEnd place rest
termination_by (links, names.length)

/-- How many links one path can lead through. -/
def maxLinks : Nat := 40

/-- The number of bytes that no path reaches. -/
def pathLimit : Nat := 4096

/-- The place that a path names, seen from a directory. A path that ends in a separator has to name
a directory, if anything stands there. -/
def resolveWith (toEnd : Bool) (t : FileTree) (here : Place) (path : String) :
    Except TreeFault Place := do
  let text := path.toList
  if text = [] then throw .missing
  if text.contains '\x00' then throw .invalid
  if pathLimit ≤ path.utf8ByteSize then throw .nameTooLong
  let endsOpen := text.getLast? = some '/'
  let place ← t.walk maxLinks (toEnd || endsOpen) (startOf here path) (namesOf path)
  if endsOpen then
    match t.find? place with
    | some (.directory _ _) | none => return place
    | some _ => throw .notDirectory
  return place

/-- The place that a path leads to. -/
def resolve : FileTree → Place → String → Except TreeFault Place := resolveWith true

/-- The place that a path names, which may be that of a link. -/
def locate : FileTree → Place → String → Except TreeFault Place := resolveWith false

/-- What stands at a place that was found. -/
def entryAt (t : FileTree) (place : Place) : Except TreeFault (Place × Entry) :=
  match t.find? place with
  | some entry => .ok (place, entry)
  | none => .error .missing

/-- The entry that a path leads to. -/
def lookUp (t : FileTree) (here : Place) (path : String) : Except TreeFault (Place × Entry) := do
  t.entryAt (← t.resolve here path)

/-- The entry that a path names, which may be a link. -/
def lookAt (t : FileTree) (here : Place) (path : String) : Except TreeFault (Place × Entry) := do
  t.entryAt (← t.locate here path)

/-! ## Looking around -/

/-- The names in a directory, in order. -/
def names (t : FileTree) (place : Place) : List String :=
  let inside := t.entries.filterMap fun (other, _) =>
    if other.dropLast = place ∧ other ≠ [] then other.getLast? else none
  inside.mergeSort (· ≤ ·)

/-- All places below a directory, with their entries. -/
def below (t : FileTree) (place : Place) : List (Place × Entry) :=
  t.entries.filter fun (other, _) => place.isPrefixOf other && place ≠ other

/-- The paths below a directory at most `n` levels deep, with what they lead to. Links to directories
are followed. Each path begins with `written`. -/
def pathsBelow (t : FileTree) (here : Place) : (n : Nat) → (written : String) →
    List (String × Option Entry)
  | 0, _ => []
  | n + 1, written =>
    match t.lookUp here (if written = "" then "." else written) with
    | .ok (place, .directory _ _) =>
      (t.names place).flatMap fun name =>
        let path := written ++ name
        match t.lookUp here path with
        | .ok (_, entry) =>
          (path, some entry) ::
            (if entry.isDirectory then t.pathsBelow here n (path ++ "/") else [])
        | .error _ => [(path, none)]
    | _ => []

/-- What a path holds. -/
def read (t : FileTree) (here : Place) (path : String) : Except TreeFault Bytes := do
  match ← t.lookUp here path with
  | (_, .directory _ _) => throw .isDirectory
  | (_, entry) => return t.contentsOf entry

/-- The tree as a build sees it whose paths are meant relative to a directory. Times before the
epoch count as the epoch. -/
def view (t : FileTree) (here : Place) (directory : String) : FileView where
  stat path := match t.lookUp here (Path.join directory path) with
    | .ok (_, entry) => .ok (some (max 0 (t.mtimeOf entry)))
    | .error .missing => .ok none
    | .error fault => .error fault.toIoFault
  read path := (t.read here (Path.join directory path)).mapError TreeFault.toIoFault

/-! ## Changes, made at a given time -/

/-- The tree after a name in the directory around a place appeared or went away. -/
def touchAround (t : FileTree) (now : Timestamp) (place : Place) : FileTree :=
  match t.find? place.dropLast with
  | some (.directory _ mode) => t.put place.dropLast (.directory now mode)
  | _ => t

/-- Puts an entry at a place that had none. -/
def create (t : FileTree) (now : Timestamp) (place : Place) (entry : Entry) : FileTree :=
  (t.put place entry).touchAround now place

/-- Takes away what stands at a place. -/
def discard (t : FileTree) (now : Timestamp) (place : Place) : FileTree :=
  (t.erase place).touchAround now place

/-- Makes a new file. -/
def addFile (t : FileTree) (now : Timestamp) (place : Place) (body : FileBody) :
    FileId × FileTree :=
  (t.freshId, (t.setBody t.freshId body).create now place (.file t.freshId))

/-- What a file is opened for: whether to make it if it is missing, and with which mode, and whether
to drop what it holds. -/
structure Opening where
  create : Option Nat
  truncate : Bool
deriving DecidableEq, Repr

/-- Opens what stands at a place. -/
def openAt (t : FileTree) (now : Timestamp) (place : Place) (o : Opening) :
    Except TreeFault (Entry × FileTree) :=
  match t.find? place, o.create with
  | none, none => .error .missing
  | none, some mode =>
    match t.find? place.dropLast with
    | some (.directory _ _) =>
      let (id, t) := t.addFile now place ⟨[], now, mode⟩
      .ok (.file id, t)
    | some _ => .error .notDirectory
    | none => .error .missing
  | some (.directory time mode), none => .ok (.directory time mode, t)
  | some (.directory _ _), some _ => .error .isDirectory
  | some (.file id), _ =>
    .ok (.file id, if o.truncate then t.setBody id { t.body id with bytes := [], mtime := now } else t)
  | some entry, _ => .ok (entry, t)

/-- Opens what a path leads to. -/
def openPath (t : FileTree) (now : Timestamp) (here : Place) (path : String) (o : Opening) :
    Except TreeFault (Entry × FileTree) := do
  t.openAt now (← t.resolve here path) o

/-- Adds bytes to the end of a file. -/
def append (t : FileTree) (now : Timestamp) (id : FileId) (bytes : Bytes) : FileTree :=
  if bytes = [] then t
  else t.setBody id { t.body id with bytes := (t.body id).bytes ++ bytes, mtime := now }

/-- Writes bytes into a file from an offset on. A gap before the offset is filled with zeros. -/
def writeFrom (t : FileTree) (now : Timestamp) (id : FileId) (offset : Nat) (bytes : Bytes) :
    FileTree :=
  let old := (t.body id).bytes
  if bytes = [] then t
  else if old.length ≤ offset then
    t.append now id (List.replicate (offset - old.length) 0 ++ bytes)
  else
    t.setBody id { t.body id with
      bytes := old.take offset ++ bytes ++ old.drop (offset + bytes.length), mtime := now }

/-- Makes a path a file with the given contents. -/
def write (t : FileTree) (now : Timestamp) (here : Place) (path : String) (bytes : Bytes) :
    Except TreeFault FileTree := do
  match ← t.openPath now here path ⟨some fileMode, true⟩ with
  | (.file id, t) => return t.append now id bytes
  | (_, t) => return t

/-- Removes a file or a link. -/
def remove (t : FileTree) (now : Timestamp) (here : Place) (path : String) :
    Except TreeFault FileTree := do
  match ← t.lookAt here path with
  | (_, .directory _ _) => throw .isDirectory
  | (place, _) => return t.discard now place

/-- Removes an empty directory. -/
def removeDirectory (t : FileTree) (now : Timestamp) (here : Place) (path : String) :
    Except TreeFault FileTree := do
  match ← t.lookAt here path with
  | (place, .directory _ _) =>
    if (t.names place).isEmpty then return t.discard now place
    throw .notEmpty
  | _ => throw .notDirectory

/-- Removes a place with all that is below it. -/
def removeAll (t : FileTree) (now : Timestamp) (place : Place) : FileTree :=
  let rest : FileTree :=
    { t with entries := t.entries.filter fun (other, _) => !place.isPrefixOf other }
  rest.touchAround now place

/-- Makes something at a path where nothing stands. -/
def make (t : FileTree) (now : Timestamp) (here : Place) (path : String) (entry : Entry) :
    Except TreeFault FileTree := do
  let place ← t.locate here path
  match t.find? place, t.find? place.dropLast with
  | some _, _ => throw .taken
  | none, some (.directory _ _) => return t.create now place entry
  | none, some _ => throw .notDirectory
  | none, none => throw .missing

/-- Creates a directory. -/
def createDirectory (t : FileTree) (now : Timestamp) (here : Place) (path : String) :
    Except TreeFault FileTree :=
  t.make now here path (.directory now directoryMode)

/-- Enters a directory, creating it if there is none. -/
def enterCreating (now : Timestamp) (mode : Nat) (at_ : FileTree × Place) (name : String) :
    Except TreeFault (FileTree × Place) := do
  let (t, here) := at_
  let place ← t.enter here name
  match t.find? place with
  | some (.directory _ _) => return (t, place)
  | some (.link _) =>
    let goal ← (t.walk maxLinks true here [name]).mapError fun _ => .taken
    if t.isDirectory goal then return (t, goal)
    throw .taken
  | some _ => throw .taken
  | none => return (t.create now place (.directory now mode), place)

/-- Enters the directories of a path, creating those that are missing. -/
def enterAll (t : FileTree) (now : Timestamp) (mode : Nat) (here : Place) (path : String)
    (names : List String) : Except TreeFault FileTree := do
  if pathLimit ≤ path.utf8ByteSize then throw .nameTooLong
  if path.toList.contains '\x00' then throw .invalid
  let (t, _) ← names.foldlM (enterCreating now mode) (t, startOf here path)
  return t

/-- Creates a directory and those around it, as far as they are missing. -/
def createDirectories (t : FileTree) (now : Timestamp) (here : Place) (path : String) :
    Except TreeFault FileTree :=
  t.enterAll now directoryMode here path (namesOf path)

/-- Creates the directories around a path, as far as they are missing. -/
def createAround (t : FileTree) (now : Timestamp) (here : Place) (path : String) :
    Except TreeFault FileTree :=
  t.enterAll now directoryMode here path (namesOf path).dropLast

/-- Gives what stands at a place another time. -/
def setMtime (t : FileTree) (place : Place) (time : Timestamp) : FileTree :=
  match t.find? place with
  | some (.file id) => t.setBody id { t.body id with mtime := time }
  | some (.directory _ mode) => t.put place (.directory time mode)
  | _ => t

/-- Gives what stands at a place another mode. -/
def setMode (t : FileTree) (place : Place) (mode : Nat) : FileTree :=
  match t.find? place with
  | some (.file id) => t.setBody id { t.body id with mode := mode }
  | some (.directory time _) => t.put place (.directory time mode)
  | _ => t

/-- A place after what stands at `source` was moved to `target`. -/
def moved (source target place : Place) : Place :=
  if source.isPrefixOf place then target ++ place.drop source.length else place

/-- Moves what stands at a place, with all that is below it, to another one, replacing a file or an
empty directory there. -/
def rename (t : FileTree) (now : Timestamp) (source target : Place) : Except TreeFault FileTree :=
  match t.find? source with
  | none => .error .missing
  | some entry =>
    if source = target then .ok t
    else if source.isPrefixOf target then .error .invalid
    else match entry.isDirectory, t.find? target with
      | false, some (.directory _ _) => .error .isDirectory
      | true, some (.directory _ _) | _, none | false, some _ =>
        if (t.names target).isEmpty then
          let rest := (t.erase target).entries.map fun (place, e) => (moved source target place, e)
          let t : FileTree := { t with entries := rest }
          .ok ((t.touchAround now source).touchAround now target)
        else .error .notEmpty
      | true, some _ => .error .notDirectory

/-- Makes a file stand at a second place. -/
def addName (t : FileTree) (now : Timestamp) (source target : Place) : Except TreeFault FileTree :=
  match t.find? source, t.find? target with
  | none, _ => .error .missing
  | some (.directory _ _), _ => .error .refused
  | some _, some _ => .error .taken
  | some entry, none => .ok (t.create now target entry)

/-- At how many places a file stands. -/
def linkCount (t : FileTree) (entry : Entry) : Nat :=
  match entry with
  | .file _ => t.entries.countP (·.2 = entry)
  | _ => 1

end FileTree

end Rebuild
