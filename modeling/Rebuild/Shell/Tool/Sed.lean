import Rebuild.Shell.Sed.Reading
import Rebuild.Shell.Tool.Select

/-!
# Editing lines

`sed` runs a script for each line. What is printed goes to the output, or takes the place of the file
that is edited.
-/

namespace Rebuild.Shell.Tool

open Run
open Rebuild.Shell.Sed (Address RangeEnd Selection Action Instruction Search Substitution)

/-- Whether the lines after the first one of a range are selected: up to a line, or until an address
selects one. -/
inductive RangeState where
  | inactive
  | upTo (line : Nat)
  | untilFound
deriving DecidableEq, Repr

instance : Inhabited RangeState := ⟨.inactive⟩

/-- What is printed after a line. -/
inductive Queued where
  | text (text : List Char)
  | file (path : String)
deriving Repr

/-- What is being edited: the line in the buffer and the one put aside, the lines and files to come, and
what is printed later. -/
structure EditState where
  space : List Char
  hasEnd : Bool
  hold : List Char
  holdHasEnd : Bool
  number : Nat
  replaced : Bool
  queue : List Queued
  ranges : Array RangeState
  last : Option (Regex × Bool × Bool)
  paths : List String
  lines : Feed
  current : String
  /-- The outputs whose last line has no end yet. -/
  unended : List (Option String)
  /-- What was printed instead of the file under way, the last of it first. -/
  printed : List (List Char)
  /-- The lines that are left of files that are read line by line. -/
  readers : List (String × List String)
  status : Nat

/-- How lines are edited: the script, the files that are written to, with their descriptors, and whether
files are edited one by one or in place. -/
structure EditSetup where
  commands : Array Instruction
  isQuiet : Bool
  outputs : List (String × Nat)
  /-- Runs a command line, and gives what it prints. -/
  runs : List Char → Run (List Char)
  inPlace : Option String
  isSeparate : Bool
  ending : Char
  width : Nat

abbrev Editor := StateT EditState Run

/-- What comes after a command: the next one, another one, the end of the script for this line with or
without printing, the same line once more, or the end. -/
inductive EditFlow where
  | next
  | goTo (command : Nat)
  | done
  | dropped
  | again
  | quit (status : Nat)
deriving DecidableEq, Repr

namespace Editor

/-! ## Output -/

/-- Writes to an output, which is the standard one without a path. -/
def put (setup : EditSetup) (output : Option String) (text : List Char) : Editor Unit := do
  match output, setup.inPlace with
  | none, some _ => modify fun s => { s with printed := text :: s.printed }
  | none, none => write 1 (Bytewise.toBytes text)
  | some path, _ => write ((setup.outputs.lookup path).getD spareDescriptor) (Bytewise.toBytes text)

/-- Ends the last line of an output. -/
def endLine (setup : EditSetup) (output : Option String) : Editor Unit := do
  if (← get).unended.contains output then
    put setup output [setup.ending]
    modify fun s => { s with unended := s.unended.filter (· ≠ output) }

/-- Writes a line to an output. -/
def putLine (setup : EditSetup) (output : Option String) (text : List Char) (hasEnd : Bool) :
    Editor Unit := do
  endLine setup output
  put setup output (if hasEnd then text ++ [setup.ending] else text)
  if !hasEnd then modify fun s => { s with unended := output :: s.unended }

/-- Writes whole lines to the standard output. -/
def putText (setup : EditSetup) (text : List Char) : Editor Unit := do
  endLine setup none
  put setup none text

/-- Prints the buffer. -/
def printSpace (setup : EditSetup) : Editor Unit := do
  let s ← get
  putLine setup none s.space s.hasEnd

/-- Prints what was to be printed after the line. -/
def flush (setup : EditSetup) : Editor Unit := do
  let queue := (← get).queue
  if !queue.isEmpty then endLine setup none
  queue.forM fun
    | .text text => put setup none text
    | .file path => do
      match ← readOperand (if path = "/dev/stdin" then "-" else path) with
      | .ok text => put setup none text
      | .error _ => return ()
  modify fun s => { s with queue := [] }

/-! ## Input -/

/-- Puts what was printed in the place of the file under way. -/
def finishFile (setup : EditSetup) : Editor Unit := do
  let s ← get
  if let some suffix := setup.inPlace then
    if s.current ≠ "" then
      let text := s.printed.reverse.flatten
      let tree := (← scene).tree
      let mode := match ← lookUp s.current with
        | .ok (_, entry) => tree.modeOf entry
        | .error _ => FileTree.fileMode
      if suffix ≠ "" then
        let backup := if suffix.contains '*' then suffix.replace "*" (baseName s.current)
          else baseName s.current ++ suffix
        let backup := if backup.contains '/' || !s.current.contains '/' then backup
          else inside (dirName s.current) backup
        let _ ← Run.change fun tree now here => do
          let source ← tree.locate here (Bytewise.toText s.current)
          let target ← tree.locate here (Bytewise.toText backup)
          tree.rename now source target
      else
        let _ ← Run.change fun tree now here => tree.remove now here (Bytewise.toText s.current)
      match ← openPath s.current ⟨some mode, true⟩ false with
      | .ok id =>
        setDescriptor spareDescriptor (some id)
        write spareDescriptor (Bytewise.toBytes text)
        setDescriptor spareDescriptor none
      | .error _ => return ()
  set { s with printed := [], current := "", unended := s.unended.filter (· ≠ none) }

/-- Begins files until there is a line. -/
def openFiles (setup : EditSetup) : (paths : List String) → Editor Unit
  | [] => modify fun s => { s with paths := [] }
  | path :: rest => do
    modify fun s => { s with paths := rest }
    let isFile ← do
      match ← lookUp path with
      | .ok (_, entry) => pure (entry.isFile || setup.inPlace.isNone)
      | .error _ => pure true
    if !isFile then
      complainAsTool ("couldn't edit " ++ path ++ ": not a regular file")
      modify fun s => { s with status := 4 }
      openFiles setup rest
    else
      match ← Feed.ofOperand path setup.ending with
      | .error fault =>
        if fault = .isDirectory || path = "-" then
          complainAsTool ("read error on " ++ (if path = "-" then "stdin" else path) ++ ": " ++
            fault.message)
          exit 4
        complainAsTool ("can't read " ++ path ++ ": " ++ fault.message)
        modify fun s => { s with status := 2 }
        openFiles setup rest
      | .ok lines =>
        if setup.isSeparate then finishFile setup
        let lines ← lines.fill
        modify fun s => { s with
          lines := lines
          current := path
          number := if setup.isSeparate then 0 else s.number }
        if lines.ready.isEmpty then openFiles setup rest

/-- Whether the file under way has another line. -/
def hasLine : Editor Bool := do
  let lines ← (← get).lines.fill
  modify fun s => { s with lines := lines }
  return !lines.ready.isEmpty

/-- Whether there is no line after this one. -/
def isLast (setup : EditSetup) : Editor Bool := do
  if ← hasLine then return false
  if setup.isSeparate then return true
  openFiles setup (← get).paths
  return !(← hasLine)

/-- Takes the next line into the buffer, after what the buffer holds if it is kept. -/
def advance (setup : EditSetup) (keeps : Bool) : Editor Bool := do
  flush setup
  modify fun s => { s with replaced := false }
  if !(← hasLine) then openFiles setup (← get).paths
  let s ← get
  match s.lines.ready with
  | [] => return false
  | line :: rest =>
    let hasEnd := line.endsWith (String.singleton setup.ending)
    let text := (if hasEnd then line.dropEnd 1 else line.dropEnd 0).toString.toList
    set { s with
      lines := { s.lines with ready := rest }
      space := if keeps then s.space ++ setup.ending :: text else text
      hasEnd := hasEnd
      number := s.number + 1 }
    return true

/-! ## Selections -/

/-- The expression that a search means, with its flags. -/
def resolve (search : Search) : Editor (Regex × Bool × Bool) := do
  match search.regex with
  | some regex =>
    modify fun s => { s with last := some (regex, search.foldsCase, search.byLines) }
    return (regex, search.foldsCase, search.byLines)
  | none =>
    match (← get).last with
    | some found => return found
    | none =>
      toolFault 1 "-e expression #1, char 0: no previous regular expression"

/-- The buffer as a text to search. -/
def subject (foldsCase byLines : Bool) : Editor Subject := do
  return ⟨(← get).space.toArray, foldsCase, byLines⟩

/-- Whether an address selects the line. -/
def isAt (setup : EditSetup) : Address → Editor Bool
  | .line n => do return (← get).number = n
  | .every first step => do
    let n := (← get).number
    return first ≤ n && (n - first) % step = 0
  | .last => isLast setup
  | .search search => do
    let (regex, foldsCase, byLines) ← resolve search
    return regex.matchesIn (← subject foldsCase byLines)

/-- Whether a selection selects the line, given the number of its command. -/
def isSelected (setup : EditSetup) (index : Nat) (selection : Selection) : Editor Bool := do
  let some start := selection.start | return true
  let become_ (range : RangeState) : Editor Unit :=
    modify fun s => { s with ranges := s.ranges.setIfInBounds index range }
  let number := (← get).number
  match (← get).ranges.getD index .inactive with
  | .upTo line =>
    if line ≤ number then become_ .inactive
    return number ≤ line
  | .untilFound =>
    if let some (.address stop) := selection.stop then
      if ← isAt setup stop then become_ .inactive
    return true
  | .inactive =>
    if !(← isAt setup start) then return false
    match selection.stop with
    | none => return true
    | some (.address (.line n)) =>
      if number < n then become_ (.upTo n)
      return true
    | some (.address _) =>
      become_ .untilFound
      return true
    | some (.further n) =>
      if 0 < n then become_ (.upTo (number + n))
      return true
    | some (.multiple n) =>
      if 0 < n then become_ (.upTo ((number / n + 1) * n))
      return true

/-! ## Commands -/

/-- A character as it is shown where it has to be seen. -/
def listedChar (c : Char) : List Char :=
  match c with
  | '\\' => ['\\', '\\']
  | '\x07' => ['\\', 'a']
  | '\x08' => ['\\', 'b']
  | '\x0c' => ['\\', 'f']
  | '\n' => ['\\', 'n']
  | '\r' => ['\\', 'r']
  | '\t' => ['\\', 't']
  | '\x0b' => ['\\', 'v']
  | _ =>
    if ' ' ≤ c && c ≤ '~' then [c]
    else
      let n := c.toNat
      '\\' :: [n / 64, n / 8 % 8, n % 8].map fun d => Char.ofNat ('0'.toNat + d)

/-- A line in which all characters can be seen, in pieces of a width. -/
def listedLine (width : Nat) (text : List Char) : List Char :=
  let (shown, _) := text.foldl (fun ((shown, column) : List (List Char) × Nat) c =>
    let piece := listedChar c
    if 0 < width && width - 1 < column + piece.length then
      (piece :: ['\\', '\n'] :: shown, piece.length)
    else (piece :: shown, column + piece.length)) ([], 0)
  (['$', '\n'] :: shown).reverse.flatten

/-- Replaces matches in the buffer. -/
def substitute (setup : EditSetup) (s : Substitution) : Editor Unit := do
  let (regex, foldsCase, byLines) ← resolve s.search
  let t ← subject foldsCase byLines
  let found := if s.first = 1 && !s.isGlobal then (regex.search? t 0).toList else regex.all t
  match Sed.chosen s found with
  | [] => return ()
  | chosen =>
    modify fun state => { state with space := Sed.replaceIn s t chosen, replaced := true }
    if s.executes then
      let output ← setup.runs (← get).space
      let output := if output.getLast? = some '\n' then output.dropLast else output
      modify fun state => { state with space := output }
    if s.prints then printSpace setup
    if let some path := s.writes then
      let state ← get
      putLine setup (some path) state.space state.hasEnd

/-- Does what a command says. -/
def act (setup : EditSetup) (index : Nat) (action : Action) : Editor EditFlow := do
  let s ← get
  match action with
  | .beginBlock _ | .endBlock | .label _ => return .next
  | .jump when_ name =>
    let isMade := match when_ with
      | .always => true
      | .replaced => s.replaced
      | .notReplaced => !s.replaced
    if when_ ≠ .always then modify fun s => { s with replaced := false }
    if !isMade then return .next
    if name = "" then return .done
    let target := setup.commands.findIdx? fun c => match c.action with
      | .label other => other = name
      | _ => false
    return (target.map EditFlow.goTo).getD .done
  | .append text =>
    set { s with queue := s.queue ++ [Queued.text text] }
    return .next
  | .insert text =>
    putText setup text
    return .next
  | .change text =>
    if s.ranges.getD index .inactive = .inactive then putText setup text
    return .dropped
  | .delete => return .dropped
  | .deleteFirst =>
    if !s.space.contains '\n' then return .dropped
    set { s with space := (s.space.dropWhile (· ≠ '\n')).drop 1 }
    return .again
  | .print =>
    printSpace setup
    return .next
  | .printFirst =>
    let first := s.space.takeWhile (· ≠ '\n')
    putLine setup none first (first.length < s.space.length || s.hasEnd)
    return .next
  | .list width =>
    putText setup (listedLine (width.getD setup.width) s.space)
    return .next
  | .execute words =>
    if words.isEmpty then
      let output ← setup.runs s.space
      set { s with space := if output.getLast? = some '\n' then output.dropLast else output }
    else putText setup (← setup.runs words)
    return .next
  | .number =>
    putText setup (toString s.number ++ "\n").toList
    return .next
  | .fileName =>
    putText setup (s.current ++ "\n").toList
    return .next
  | .next =>
    if ← isLast setup then return .done
    if !setup.isQuiet then printSpace setup
    let _ ← advance setup false
    return .next
  | .appendNext =>
    if ← isLast setup then return .done
    let _ ← advance setup true
    return .next
  | .copyToHold =>
    set { s with hold := s.space, holdHasEnd := s.hasEnd }
    return .next
  | .appendToHold =>
    set { s with hold := s.hold ++ setup.ending :: s.space, holdHasEnd := s.hasEnd }
    return .next
  | .copyFromHold =>
    set { s with space := s.hold, hasEnd := s.holdHasEnd }
    return .next
  | .appendFromHold =>
    set { s with space := s.space ++ setup.ending :: s.hold, hasEnd := s.holdHasEnd }
    return .next
  | .exchange =>
    set { s with
      space := s.hold
      hasEnd := s.holdHasEnd
      hold := s.space
      holdHasEnd := s.hasEnd }
    return .next
  | .clear =>
    set { s with space := [] }
    return .next
  | .quit status prints =>
    if prints then
      if !setup.isQuiet then printSpace setup
      flush setup
    return .quit status
  | .readFile path =>
    set { s with queue := s.queue ++ [Queued.file path] }
    return .next
  | .readLine path =>
    let lines ← match s.readers.lookup path with
      | some lines => pure lines
      | none => do
        match ← readOperand path with
        | .ok text => pure (Lines.of text)
        | .error _ => pure []
    let queue := match lines with
      | line :: _ => s.queue ++ [.text (line.toList ++ [setup.ending])]
      | [] => s.queue
    set { s with
      queue := queue
      readers := (path, lines.tail) :: s.readers.filter (·.1 ≠ path) }
    return .next
  | .write path =>
    putLine setup (some path) s.space s.hasEnd
    return .next
  | .writeFirst path =>
    putLine setup (some path) (s.space.takeWhile (· ≠ '\n')) true
    return .next
  | .substitute sub =>
    substitute setup sub
    return .next
  | .translate pairs =>
    set { s with space := s.space.map fun c => (pairs.lookup c).getD c }
    return .next

/-- Runs the script from a command on, in at most `n` steps. -/
def runFrom (setup : EditSetup) : (n index : Nat) → Editor EditFlow
  | 0, _ => return .done
  | n + 1, index => do
    match setup.commands[index]? with
    | none => return .done
    | some command =>
      if (← isSelected setup index command.selection) != command.selection.isNegated then
        match ← act setup index command.action with
        | .next => runFrom setup n (index + 1)
        | .goTo index => runFrom setup n index
        | flow => return flow
      else
        match command.action with
        | .beginBlock stop => runFrom setup n (stop + 1)
        | _ => runFrom setup n (index + 1)

/-- How many steps a script can take for a line, and how many lines there can be. -/
def maxSteps : Nat := 100000000

/-- Runs the script for the lines, at most `n`. If the flag is set, the first line is in the buffer
already. -/
def editLines (setup : EditSetup) : (n : Nat) → (isReady : Bool) → Editor Unit
  | 0, _ => return ()
  | n + 1, isReady => do
    if !isReady then
      if !(← advance setup false) then return ()
    match ← runFrom setup maxSteps 0 with
    | .quit status => modify fun s => { s with status := status }
    | flow =>
      if flow ≠ .dropped && flow ≠ .again && !setup.isQuiet then printSpace setup
      flush setup
      editLines setup n (flow = .again)

end Editor

/-- The files to which a script writes. -/
def writtenPaths (commands : Array Instruction) : List String :=
  (commands.toList.filterMap fun c => match c.action with
    | .write path | .writeFirst path => some path
    | .substitute s => s.writes
    | _ => none).eraseDups

/-- The labels of jumps that lead nowhere. -/
def lostLabels (commands : Array Instruction) : List String :=
  let labels := commands.toList.filterMap fun c => match c.action with
    | .label name => some name
    | _ => none
  commands.toList.filterMap fun c => match c.action with
    | .jump _ name => if name = "" || labels.contains name then none else some name
    | _ => none

/-- The options that tell the chunks of a script, in order. -/
def scriptChunks (options : List (Char × String)) : Run (List (Sed.Origin × List Char)) := do
  let (chunks, _) ← options.foldlM (fun (chunks, count) (c, word) => do
    if c = 'e' then return (chunks ++ [(Sed.Origin.expression (count + 1), word.toList)], count + 1)
    if c ≠ 'f' then return (chunks, count)
    match ← readOperand word with
    | .ok text => return (chunks ++ [(Sed.Origin.file word, text)], count)
    | .error fault => toolFault 4 ("couldn't open file " ++ word ++ ": " ++ fault.message))
    (([] : List (Sed.Origin × List Char)), 0)
  return chunks

/-- Edits lines. -/
def sed : Tool := fun become words => do
  let table := OptionTable.of "bsnrzuEe:f:l:" [("quiet", 'n'), ("silent", 'n'), ("expression:", 'e'),
    ("file:", 'f'), ("in-place=", 'i'), ("line-length:", 'l'), ("null-data", 'z'), ("separate", 's'),
    ("unbuffered", 'u'), ("regexp-extended", 'E'), ("posix", 'p'), ("debug", 'd'),
    ("follow-symlinks", 'b'), ("sandbox", 'b'), ("binary", 'b')]
  -- The option for editing in place takes only the rest of its own word.
  let words := words.map fun word =>
    let letters := word.toList.drop 1
    let front := letters.takeWhile fun c => c ≠ 'i' && "bsnrzuE".toList.contains c
    if word.startsWith "-" && !word.startsWith "--" && letters[front.length]? = some 'i' then
      "--in-place=" ++ String.ofList (letters.drop (front.length + 1))
    else word
  let given ← match table.read true words with
    | .ok given => pure given
    | .error fault => do
      complainAsTool fault.message
      complain "Usage: sed [OPTION]... \x7bscript-only-if-no-other-script\x7d [input-file]..."
      exit 1
  let hasScript := given.options.any fun (c, _) => c = 'e' || c = 'f'
  let (chunks, paths) ← if hasScript then do pure (← scriptChunks given.options, given.operands)
    else match given.operands with
      | script :: rest => pure ([(Sed.Origin.expression 1, script.toList)], rest)
      | [] => do
        complain "Usage: sed [OPTION]... \x7bscript-only-if-no-other-script\x7d [input-file]..."
        exit 1
  let script ← match Sed.read (given.has 'E' || given.has 'r') chunks with
    | .ok script => pure script
    | .error (status, fault) => toolFault status fault
  if let label :: _ := lostLabels script.commands then
    toolFault 4 ("can't find label for jump to \x60" ++ label ++ "'")
  let mode ← newMode 0o666
  let outputs ← (writtenPaths script.commands).zipIdx.mapM fun (path, i) => do
    match path with
    | "/dev/stdout" => return (path, 1)
    | "/dev/stderr" => return (path, 2)
    | _ =>
      match ← openPath path ⟨some mode, true⟩ false with
      | .ok id =>
        setDescriptor (200 + i) (some id)
        return (path, 200 + i)
      | .error fault => toolFault 4 ("couldn't open file " ++ path ++ ": " ++ fault.message)
  let inPlace := given.find? 'i'
  if inPlace.isSome && paths.isEmpty then toolFault 4 "no input files"
  let setup : EditSetup :=
    { commands := script.commands
      isQuiet := script.isQuiet || given.has 'n'
      outputs := outputs
      runs := fun line => do
        let bytes ← outputOf become ["sh", "-c", String.ofList line]
        return Bytewise.ofBytes bytes
      inPlace := inPlace
      isSeparate := given.has 's' || inPlace.isSome
      ending := if given.has 'z' then '\x00' else '\n'
      width := ((given.find? 'l').bind number?).getD 70 }
  let ranges := script.commands.map fun c => match c.selection.start with
    | some (.line 0) => RangeState.untilFound
    | _ => .inactive
  let start : EditState :=
    { space := [], hasEnd := true, hold := [], holdHasEnd := true, number := 0, replaced := false, queue := []
      ranges := ranges, last := none, paths := if paths.isEmpty then ["-"] else paths, lines := Feed.nothing
      current := "", unended := [], printed := [], readers := [], status := 0 }
  let (_, s) ← (do
    Editor.editLines setup Editor.maxSteps false
    let s ← get
    if s.current = "-" then
      unread 0 (s.lines.ready.foldl (fun size line => size + line.length) s.lines.rest.length)
    Editor.finishFile setup : Editor Unit).run start
  return s.status

end Rebuild.Shell.Tool
