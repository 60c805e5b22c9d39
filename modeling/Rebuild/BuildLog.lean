import Rebuild.Bindings
import Rebuild.Error
import Rebuild.Text.Lines
import Rebuild.Text.Numeral

/-!
# The build log

The log remembers, for each output, when it was last built, with which command, and how new it was
afterwards. It is a text file: a header, then a line for each time an output was built, a later line
taking the place of an earlier one for the same output. Lines that cannot be read are passed over. A
file that is not text, or starts with anything but the header, counts as empty and is written anew.

`LogStore` is what the log needs of the place where its file is kept.
-/

namespace Rebuild

/-- What the log knows about an output. -/
structure LogEntry where
  started : UInt64
  finished : UInt64
  mtime : UInt64
  commandHash : UInt64
deriving DecidableEq, Repr

namespace LogEntry

/-- The line for an output, with its line end. -/
def line (path : String) (e : LogEntry) : List Char :=
  Numeral.decimal e.started.toNat ++ ' ' :: Numeral.decimal e.finished.toNat ++
    ' ' :: Numeral.decimal e.mtime.toNat ++ ' ' :: path.toList ++
    ' ' :: Numeral.hexadecimal e.commandHash.toNat ++ ['\n']

/-- The text before the first space and after it. -/
def cutField? (text : List Char) : Option (List Char × List Char) :=
  match text.dropWhile (· ≠ ' ') with
  | _ :: rest => some (text.takeWhile (· ≠ ' '), rest)
  | [] => none

/-- The text before the last space and after it. -/
def cutLastField? (text : List Char) : Option (List Char × List Char) :=
  (cutField? text.reverse).map fun (last, rest) => (rest.reverse, last.reverse)

/-- Reads a line: three numbers, a path, which may hold spaces, and a hash. -/
def parse? (line : List Char) : Option (String × LogEntry) := do
  let (started, rest) ← cutField? line
  let (finished, rest) ← cutField? rest
  let (mtime, rest) ← cutField? rest
  let (path, hash) ← cutLastField? rest
  let started ← Numeral.word? 10 started
  let finished ← Numeral.word? 10 finished
  let mtime ← Numeral.word? 10 mtime
  let hash ← Numeral.word? 16 hash
  if path.isEmpty then none
  return (String.ofList path, ⟨started, finished, mtime, hash⟩)

end LogEntry

/-- A file that was opened for writing at its end. -/
abbrev LogHandle := Nat

/-- The file behind a log: the handle to write to it once it was opened, and whether what it held
before is to be dropped then. -/
structure LogFile where
  path : String
  handle : Option LogHandle
  replace : Bool
deriving DecidableEq, Repr

/-- What is known about outputs, and the file that remembers it, if there is one. -/
structure BuildLog where
  entries : Bindings LogEntry
  file : Option LogFile
deriving DecidableEq, Repr

/-- Where log files are kept: opening one, which tells its handle and how many bytes it has, and
adding bytes to the end of an open one, wherever it has gone since. -/
structure LogStore (ω : Type) where
  openFile : (path : String) → (replace : Bool) → ω → Except IoFault ((LogHandle × Nat) × ω)
  append : LogHandle → Bytes → ω → Except IoFault ω

namespace BuildLog

/-- The name of the log file in the build directory. -/
def fileName : String := ".ninja_log"

/-- The first line of a log file. -/
def header : List Char := "# knit log v1".toList

/-- A log without a file. -/
def inMemory : BuildLog := ⟨∅, none⟩

/-- The entries after one more line. Blank lines and lines that cannot be read change nothing. -/
def addLine (entries : Bindings LogEntry) (line : List Char) : Bindings LogEntry :=
  if (Text.trim line).isEmpty then entries
  else match LogEntry.parse? line with
    | some (path, entry) => entries.bind path entry
    | none => entries

/-- The entries of a log file, unless it has to be written anew. -/
def entries? (contents : Bytes) : Option (Bindings LogEntry) := do
  let text ← Utf8.decode? contents
  match Text.lines text with
  | [] => some ∅
  | first :: rest => if first = header then some (rest.foldl addLine ∅) else none

/-- The log behind which a file with the given contents stands. A missing file counts as empty, and
one that cannot be read is written anew. -/
def ofFile (path : String) (contents : Except IoFault Bytes) : BuildLog :=
  let found := match contents with
    | .ok bytes => entries? bytes
    | .error .missing => some ∅
    | .error (.other _) => none
  ⟨found.getD ∅, some ⟨path, none, found.isNone⟩⟩

/-- The entry of an output. -/
def find? (log : BuildLog) (path : String) : Option LogEntry :=
  log.entries.find? path

/-- A log together with the place where its file is kept. -/
structure Kept (ω : Type) where
  log : BuildLog
  place : ω

variable {ω : Type}

/-- Adds bytes to the log file. -/
def appendBytes (store : LogStore ω) (file : LogFile) (handle : LogHandle) (bytes : Bytes) :
    EStateM Error (Kept ω) Unit :=
  fun k => match store.append handle bytes k.place with
    | .ok place => .ok () { k with place := place }
    | .error fault => .error (.cannotWriteLog file.path fault) k

/-- Opens the log file. An empty file gets the header. -/
def openFile (store : LogStore ω) (file : LogFile) : EStateM Error (Kept ω) LogHandle := do
  let (handle, size) ← fun k => match store.openFile file.path file.replace k.place with
    | .ok (opened, place) => .ok opened { k with place := place }
    | .error fault => .error (.cannotOpenLog file.path fault) k
  if size = 0 then appendBytes store file handle (Utf8.encode (header ++ ['\n']))
  modify fun k => { k with log.file := some { file with handle := some handle } }
  return handle

/-- The handle of the log file, which is opened unless that was done before. -/
def openOnce (store : LogStore ω) (file : LogFile) : EStateM Error (Kept ω) LogHandle := do
  match file.handle with
  | some handle => return handle
  | none => openFile store file

/-- Remembers an entry for an output, in the file too if there is one. -/
def record (store : LogStore ω) (path : String) (entry : LogEntry) :
    EStateM Error (Kept ω) Unit := do
  modify fun k => { k with log.entries := k.log.entries.bind path entry }
  match (← get).log.file with
  | none => return ()
  | some file =>
    let handle ← openOnce store file
    appendBytes store file handle (Utf8.encode (entry.line path))

end BuildLog

end Rebuild
