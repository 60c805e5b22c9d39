import Rebuild.Shell.Tool.Dump
import Rebuild.Shell.Tool.Grep
import Rebuild.Text.Difference
import Std.Data.HashMap

/-!
# Tools that compare

`cmp` finds the first byte in which two files differ, and `diff` the lines.
-/

namespace Rebuild.Shell.Tool

open Run

/-- Complains about the words of a tool that names itself also where it tells how to get help. -/
def comparingFault {α : Type} (text : String) : Run α := do
  let name := (← process).name
  complain (name ++ ": " ++ text)
  complain (name ++ ": Try '" ++ name ++ " --help' for more information.")
  exit 2

/-- Reads the words of a tool that compares. -/
def readComparing (table : OptionTable) (words : List String) : Run Given :=
  match table.read true words with
  | .ok given => return given
  | .error fault => comparingFault fault.message

/-! ## Bytes -/

/-- The first place where two texts differ: its number, the line in which it is, and the characters.
Nothing is left of a text that ends there. -/
def firstDifference : (place line : Nat) → List Char → List Char →
    Option (Nat × Nat × Option (Char × Char))
  | _, _, [], [] => none
  | place, line, a :: as, b :: bs =>
    if a = b then firstDifference (place + 1) (if a = '\n' then line + 1 else line) as bs
    else some (place, line, some (a, b))
  | place, line, _, _ => some (place, line, none)

/-- A number in octal digits, at the right side of three columns. -/
def octalColumn (c : Char) : String :=
  FieldRow.alignRight 3 ' ' (toString (octal c.toNat))

/-- A character between others as it can be seen. -/
def shownByte (c : Char) : String := visible true c

/-- Compares two files byte by byte. -/
def cmp : Tool := fun _ words => do
  let table := OptionTable.of "bi:ln:sv" [("print-bytes", 'b'), ("ignore-initial:", 'i'), ("verbose", 'l'),
    ("bytes:", 'n'), ("quiet", 's'), ("silent", 's')]
  let given ← readComparing table words
  if given.operands.isEmpty then
    comparingFault ("missing operand after " ++ quote (← process).name)
  let first := given.operands.headD "-"
  let second := given.operands.getD 1 "-"
  let skips := ((given.find? 'i').map (·.splitOn ":")).getD []
  let skipWords := [given.operands[2]? <|> skips.head?,
    given.operands[3]? <|> (if given.operands.length = 3 then none else skips.getLast?)]
  let sizes ← skipWords.mapM fun word? => do
    match word? with
    | none => return 0
    | some word =>
      match sizeOf? word with
      | some n => return n
      | none => comparingFault ("invalid --ignore-initial value " ++ quote word)
  let contents ← [first, second].mapM fun path => do
    match ← readOperand path with
    | .ok text => return text
    | .error fault =>
      if !given.has 's' then complainOf path fault
      exit 2
  let limit := ((given.find? 'n').bind sizeOf?)
  let cut (text : List Char) (skip : Nat) : List Char :=
    let rest := text.drop skip
    (limit.map rest.take).getD rest
  let a := cut (contents.getD 0 []) (sizes.getD 0 0)
  let b := cut (contents.getD 1 []) (sizes.getD 1 0)
  let shorter := if b.length < a.length then second else first
  let least := min a.length b.length
  match firstDifference 1 1 a b with
  | none => return 0
  | some (place, line, found) =>
    if given.has 's' then return 1
    if given.has 'l' then
      let width := (toString least).length
      let different := ((a.zip b).zipIdx).filter fun ((x, y), _) => x ≠ y
      let shown := different.map fun ((x, y), i) =>
        let number := FieldRow.alignRight width ' ' (toString (i + 1))
        if given.has 'b' then
          let char := shownByte x
          number ++ " " ++ octalColumn x ++ " " ++ char ++
            String.ofList (List.replicate (4 - char.length) ' ') ++ " " ++ octalColumn y ++ " " ++
            shownByte y ++ "\n"
        else number ++ " " ++ octalColumn x ++ " " ++ octalColumn y ++ "\n"
      say (String.join shown)
      if a.length ≠ b.length then
        complainAsTool (if least = 0 then "EOF on " ++ shorter ++ " which is empty"
          else "EOF on " ++ shorter ++ " after byte " ++ toString least)
      return 1
    match found with
    | some (x, y) =>
      if given.has 'b' then
        say (first ++ " " ++ second ++ " differ: byte " ++ toString place ++ ", line " ++
          toString line ++ " is " ++ octalColumn x ++ " " ++ shownByte x ++ " " ++ octalColumn y ++ " " ++
          shownByte y ++ "\n")
      else
        say (first ++ " " ++ second ++ " differ: char " ++ toString place ++ ", line " ++
          toString line ++ "\n")
    | none =>
      let endsLine := a[least - 1]? = some '\n'
      complainAsTool ("EOF on " ++ shorter ++
        (if least = 0 then " which is empty"
        else " after byte " ++ toString least ++
          (if endsLine then ", line " ++ toString (line - 1) else ", in line " ++ toString line)))
    return 1

/-! ## Lines -/

/-- How differences are shown. -/
inductive DiffStyle where
  | normal
  | unified (around : Nat)
  | context (around : Nat)
  | editing
  | numbered
  | brief
deriving DecidableEq, Repr

/-- The number of lines that are shown around differences. -/
def DiffStyle.around : DiffStyle → Nat
  | .unified around => around
  | .context around => around
  | _ => 0

/-- A file that is compared: its path, its time, and its lines with their ends. -/
structure DiffFile where
  path : String
  time : Timestamp
  lines : Array String

/-- How lines are compared and shown. -/
structure DiffSetup where
  given : Given
  style : DiffStyle
  /-- The options as they were given. -/
  shownOptions : String
  labels : List String
  ignored : Option Regex

/-- A line the way it is compared. -/
def comparedLine (given : Given) (line : String) : String :=
  let chars := line.toList
  let isBlank (c : Char) : Bool := CharClass.has "space" c
  let chars := if given.has 'i' then chars.map Char.toLower else chars
  let trimmed (chars : List Char) : List Char := (chars.reverse.dropWhile isBlank).reverse
  let rec squeezed : (wasBlank : Bool) → List Char → List Char
    | _, [] => []
    | wasBlank, c :: rest =>
      if isBlank c then (if wasBlank then [] else [' ']) ++ squeezed true rest
      else c :: squeezed false rest
  String.ofList (
    if given.has 'w' then chars.filter (!isBlank ·)
    else if given.has 'b' then squeezed false (trimmed chars)
    else if given.has 'Z' then trimmed chars
    else if given.has '\r' && chars.drop (chars.length - 2) = ['\r', '\n'] then
      chars.take (chars.length - 2) ++ ['\n']
    else chars)

/-- Numbers for lines that are the same exactly for lines that are compared as the same, given the numbers
that are in use, and those that are in use afterwards. -/
def lineKeys (known : Std.HashMap String Nat) (lines : List String) :
    Array Nat × Std.HashMap String Nat :=
  lines.foldl (fun (keys, known) line =>
    match known.get? line with
    | some key => (keys.push key, known)
    | none => (keys.push known.size, known.insert line known.size)) (#[], known)

/-- A line with a mark in front of it, and with what is said of a line without an end. -/
def markedLine (mark line : String) : String :=
  if line.endsWith "\n" then mark ++ line else mark ++ line ++ "\n\\ No newline at end of file\n"

/-- Lines of a file with a mark in front of each. -/
def markedLines (mark : String) (f : DiffFile) (low high : Nat) : String :=
  String.join ((f.lines.extract low high).toList.map (markedLine mark))

/-- The numbers of the first and last of some lines. -/
def lineRange (low high : Nat) : String :=
  if high ≤ low + 1 then toString high else toString (low + 1) ++ "," ++ toString high

open Difference (Hunk)

/-- The letter for what a hunk does. -/
def hunkLetter (h : Hunk) : String :=
  if h.top = h.bottom then "d" else if h.left = h.right then "a" else "c"

/-- A hunk by itself. -/
def normalHunk (a b : DiffFile) (h : Hunk) : String :=
  lineRange h.left h.right ++ hunkLetter h ++ lineRange h.top h.bottom ++ "\n" ++
    markedLines "< " a h.left h.right ++
    (if hunkLetter h = "c" then "---\n" else "") ++ markedLines "> " b h.top h.bottom

/-- A hunk as commands for an editor. -/
def editingHunk (b : DiffFile) (h : Hunk) : String :=
  lineRange h.left h.right ++ hunkLetter h ++ "\n" ++
    (if h.top = h.bottom then "" else String.join
      ((b.lines.extract h.top h.bottom).toList.map fun line =>
        if line.endsWith "\n" then line else line ++ "\n") ++ ".\n")

/-- A hunk with numbers of lines. -/
def numberedHunk (b : DiffFile) (h : Hunk) : String :=
  (if h.left = h.right then "" else
    "d" ++ toString (h.left + 1) ++ " " ++ toString (h.right - h.left) ++ "\n") ++
  (if h.top = h.bottom then "" else
    "a" ++ toString h.right ++ " " ++ toString (h.bottom - h.top) ++ "\n" ++
      String.join (b.lines.extract h.top h.bottom).toList)

/-- Hunks that are shown together because the lines around them meet. -/
def hunkGroups (around : Nat) : List Hunk → List (List Hunk)
  | [] => []
  | h :: rest =>
    match hunkGroups around rest with
    | (next :: others) :: groups =>
      if next.left - h.right ≤ 2 * around then (h :: next :: others) :: groups
      else [h] :: (next :: others) :: groups
    | groups => [h] :: groups

/-- The lines that a group of hunks shows in both files. -/
def groupWindow (around : Nat) (a b : DiffFile) (group : List Hunk) : Hunk :=
  let first := group.headD ⟨0, 0, 0, 0⟩
  let last := group.getLastD ⟨0, 0, 0, 0⟩
  let before := min around first.left
  let after := min around (a.lines.size - last.right)
  ⟨first.left - before, last.right + after, first.top - before, min (last.bottom + after) b.lines.size⟩

/-- The numbers of lines in a group of hunks. -/
def unifiedRange (low high : Nat) : String :=
  if high = low then toString low ++ ",0"
  else if high = low + 1 then toString high
  else toString (low + 1) ++ "," ++ toString (high - low)

/-- Hunks with lines around them, in one row. -/
def unifiedGroup (around : Nat) (a b : DiffFile) (group : List Hunk) : String :=
  let w := groupWindow around a b group
  let (shown, last) := group.foldl (fun ((shown, last) : String × Nat) h =>
    (shown ++ markedLines " " a last h.left ++ markedLines "-" a h.left h.right ++
      markedLines "+" b h.top h.bottom, h.right)) ("", w.left)
  "@@ -" ++ unifiedRange w.left w.right ++ " +" ++ unifiedRange w.top w.bottom ++ " @@\n" ++ shown ++
    markedLines " " a last w.right

/-- Hunks with lines around them, in two rows. -/
def contextGroup (around : Nat) (a b : DiffFile) (group : List Hunk) : String :=
  let w := groupWindow around a b group
  let side (f : DiffFile) (low high : Nat) (mark : String) (part : Hunk → Nat × Nat) : String :=
    if group.all fun h => (part h).1 = (part h).2 then ""
    else
      let (shown, last) := group.foldl (fun ((shown, last) : String × Nat) h =>
        let (start, stop) := part h
        let mark := if hunkLetter h = "c" then "! " else mark
        (shown ++ markedLines "  " f last start ++ markedLines mark f start stop, stop)) ("", low)
      shown ++ markedLines "  " f last high
  "***************\n*** " ++ lineRange w.left w.right ++ " ****\n" ++
    side a w.left w.right "- " (fun h => (h.left, h.right)) ++
    "--- " ++ lineRange w.top w.bottom ++ " ----\n" ++
    side b w.top w.bottom "+ " fun h => (h.top, h.bottom)

/-- The line that names a file in front of hunks. -/
def fileHeader (mark : String) (label : Option String) (f : DiffFile) : String :=
  mark ++ " " ++ label.getD (f.path ++ "\t" ++ Date.format f.time "%Y-%m-%d %H:%M:%S.%N %z") ++ "\n"

/-- The hunks in which two files differ, without those that are ignored. -/
def diffHunks (setup : DiffSetup) (a b : DiffFile) : List Hunk :=
  let (first, known) := lineKeys ∅ (a.lines.toList.map (comparedLine setup.given))
  let (second, _) := lineKeys known (b.lines.toList.map (comparedLine setup.given))
  let isIgnored (line : String) : Bool :=
    (setup.given.has 'B' && line.all fun c => c = '\n') ||
      setup.ignored.any fun r =>
        let body := if line.endsWith "\n" then (line.dropEnd 1).toString else line
        r.matchesIn ⟨body.toList.toArray, false, false⟩
  let around := setup.style.around
  let same (lead : Nat) (i j : Nat → Nat) : Nat :=
    ((List.range (min a.lines.size b.lines.size - lead)).takeWhile fun k =>
      a.lines[i k]? = b.lines[j k]?).length
  let lead := same 0 id id - around
  let tail := same lead (a.lines.size - 1 - ·) (b.lines.size - 1 - ·) - around
  (Difference.hunks lead tail first second).filter fun h =>
    !((a.lines.extract h.left h.right).all isIgnored && (b.lines.extract h.top h.bottom).all isIgnored)

/-- The text that shows hunks. -/
def shownHunks (setup : DiffSetup) (a b : DiffFile) (hunks : List Hunk) : String :=
  match setup.style with
  | .normal => String.join (hunks.map (normalHunk a b))
  | .editing => String.join (hunks.reverse.map (editingHunk b))
  | .numbered => String.join (hunks.map (numberedHunk b))
  | .brief => "Files " ++ a.path ++ " and " ++ b.path ++ " differ\n"
  | .unified around =>
    fileHeader "---" setup.labels[0]? a ++ fileHeader "+++" setup.labels[1]? b ++
      String.join ((hunkGroups around hunks).map (unifiedGroup around a b))
  | .context around =>
    fileHeader "***" setup.labels[0]? a ++ fileHeader "---" setup.labels[1]? b ++
      String.join ((hunkGroups around hunks).map (contextGroup around a b))

/-- Compares two texts and shows how they differ, below a title if there is one. -/
def diffTexts (setup : DiffSetup) (title : Option String) (a b : String) (first second : List Char)
    (times : Timestamp × Timestamp) : Run Nat := do
  let isBinary := !setup.given.has 'a' && (first.contains '\x00' || second.contains '\x00')
  let isUnended (text : List Char) : Bool := text.getLastD '\n' ≠ '\n'
  let isEditing := setup.style = .editing
  let linesOf (text : List Char) : Array String :=
    (Lines.withEnds (if isEditing && isUnended text then text ++ ['\n'] else text)).toArray
  let f : DiffFile := ⟨a, times.1, linesOf first⟩
  let g : DiffFile := ⟨b, times.2, linesOf second⟩
  let hunks := if first = second then [] else diffHunks setup f g
  let unended := if isEditing then [(a, first), (b, second)].filter (isUnended ·.2) else []
  if unended.isEmpty && (first = second || (hunks.isEmpty && !isBinary)) then
    if setup.given.has 's' then say ("Files " ++ a ++ " and " ++ b ++ " are identical\n")
    return 0
  if isBinary && setup.style ≠ .brief then
    say ("Binary files " ++ a ++ " and " ++ b ++ " differ\n")
    return 1
  let isBrief := setup.style = .brief
  if !isBrief && !hunks.isEmpty then if let some title := title then say (title ++ "\n")
  say (shownHunks setup f g hunks)
  unended.forM fun (path, _) => do
    complainAsTool (path ++ ": No newline at end of file\n")
  return if unended.isEmpty then 1 else 2

/-- What a path holds for comparing, and its time. A path that is missing can count as empty. -/
def readCompared (asEmpty : Bool) (path : String) : Run (Except TreeFault (List Char × Timestamp)) := do
  match ← readOperand path with
  | .ok text =>
    let time ← if path = "-" then do pure (← scene).now
      else do
        match ← lookUp path with
        | .ok (_, entry) => pure ((← scene).tree.mtimeOf entry)
        | .error _ => pure 0
    return .ok (text, time)
  | .error fault => return if asEmpty && fault = .missing then .ok ([], 0) else .error fault

/-- Compares two files. -/
def diffFiles (setup : DiffSetup) (title : Option String) (a b : String) : Run Nat := do
  let asEmpty := setup.given.has 'N'
  match ← readCompared asEmpty a, ← readCompared asEmpty b with
  | .ok (first, time), .ok (second, otherTime) =>
    diffTexts setup title a b first second (time, otherTime)
  | first, second =>
    [(a, first), (b, second)].forM fun (path, found) => do
      match found with
      | .error fault => complainOf path fault
      | .ok _ => return ()
    return 2

/-- Compares the files in two directories, at most `n` levels deep. -/
def diffDirectories (setup : DiffSetup) : (n : Nat) → (a b : String) → Run Nat
  | 0, _, _ => return 2
  | n + 1, a, b => do
    let namesIn (path : String) : Run (List String) := do
      match ← lookUp path with
      | .ok (place, .directory _ _) => return ((← scene).tree.names place).map Bytewise.ofText
      | _ => return []
    let first ← namesIn a
    let second ← namesIn b
    let excluded := (setup.given.options.filter (·.1 = 'x')).map (·.2)
    let names := ((first ++ second).eraseDups.mergeSort fun x y => x ≤ y).filter fun name =>
      !excluded.any fun pattern => (Pattern.ofText pattern).matchesText name.toList
    names.foldlM (fun status name => do
      let (x, y) := (inside a name, inside b name)
      let title := "diff" ++ setup.shownOptions ++ " " ++ x ++ " " ++ y
      let isThere (names : List String) : Bool := names.contains name || setup.given.has 'N'
      let found ←
        if !isThere first then
          say ("Only in " ++ b ++ ": " ++ name ++ "\n")
          pure 1
        else if !isThere second then
          say ("Only in " ++ a ++ ": " ++ name ++ "\n")
          pure 1
        else
          let isDirectory ← leadsToDirectory x
          let otherIsDirectory ← leadsToDirectory y
          if isDirectory && otherIsDirectory || (setup.given.has 'N' &&
              (isDirectory && !second.contains name || otherIsDirectory && !first.contains name)) then
            if setup.given.has 'r' then diffDirectories setup n x y
            else
              say ("Common subdirectories: " ++ x ++ " and " ++ y ++ "\n")
              pure 0
          else if isDirectory || otherIsDirectory then
            let kind (isDirectory : Bool) : String :=
              if isDirectory then "a directory" else "a regular file"
            say ("File " ++ x ++ " is " ++ kind isDirectory ++ " while file " ++ y ++ " is " ++
              kind otherIsDirectory ++ "\n")
            pure 1
          else diffFiles setup (some title) x y
      return max status found) 0

/-- The number of lines to show around differences. A number in the place of an option is taken unless
an option asks for more. -/
def linesAround (given : Given) : Nat :=
  let asked := given.options.filterMap fun (letter, argument) =>
    if "uUcC".contains letter then
      if argument = "" then some 3 else number? argument
    else none
  let most := asked.foldl max (if asked.isEmpty then 3 else 0)
  let isExplicit := given.options.any fun (letter, argument) => "uUcC".contains letter && argument ≠ ""
  match number? (String.ofList ((given.options.map (·.1)).filter Char.isDigit)) with
  | some n => if most < n || !isExplicit then n else most
  | none => most

/-- Compares files line by line. -/
def diff : Tool := fun _ words => do
  let table := OptionTable.of "0123456789aBbcC:eEiI:L:nNpqrstTuU:wW:x:yZ" [("text", 'a'), ("ignore-blank-lines", 'B'),
    ("ignore-space-change", 'b'), ("context=", 'c'), ("ed", 'e'), ("ignore-tab-expansion", 'E'),
    ("ignore-case", 'i'), ("ignore-matching-lines:", 'I'), ("label:", 'L'), ("rcs", 'n'),
    ("new-file", 'N'), ("brief", 'q'), ("recursive", 'r'), ("report-identical-files", 's'),
    ("expand-tabs", 't'), ("initial-tab", 'T'), ("unified=", 'u'), ("ignore-all-space", 'w'),
    ("exclude:", 'x'), ("ignore-trailing-space", 'Z'), ("normal", '='), ("color=", 'k'),
    ("strip-trailing-cr", '\r'), ("minimal", 'd'), ("show-c-function", 'p'), ("side-by-side", 'y')]
  let given ← readComparing table words
  let (a, b) ← match given.operands with
    | [a, b] => pure (a, b)
    | [] => comparingFault ("missing operand after " ++ quote (← process).name)
    | [a] => comparingFault ("missing operand after " ++ quote a)
    | _ :: _ :: extra :: _ => comparingFault ("extra operand " ++ quote extra)
  let around := linesAround given
  let style := match given.lastOf ['u', 'U', 'c', 'C', 'e', 'n', '='] with
    | some 'u' | some 'U' => DiffStyle.unified around
    | some 'c' | some 'C' => .context around
    | some 'e' => .editing
    | some 'n' => .numbered
    | some _ => .normal
    | none => if given.has 'p' then .context around else .normal
  let ignored ← match given.find? 'I' with
    | none => pure none
    | some text =>
      match Regex.read .basic text.toList with
      | .ok regex => pure (some regex)
      | .error fault => toolFault 2 (text ++ ": " ++ fault.message)
  let options := given.operands.foldl List.erase words
  let setup : DiffSetup :=
    { given := given
      style := if given.has 'q' then .brief else style
      shownOptions := String.join (options.map (" " ++ ·))
      labels := (given.options.filter (·.1 = 'L')).map (·.2)
      ignored := ignored }
  let isDirectory ← leadsToDirectory a
  let otherIsDirectory ← leadsToDirectory b
  let isMissing (path : String) : Run Bool := do
    return match ← lookUp path with
      | .ok _ => false
      | .error _ => path ≠ "-"
  let firstMissing ← isMissing a
  let secondMissing ← isMissing b
  if (firstMissing && (secondMissing || !given.has 'N')) || (secondMissing && !given.has 'N') then
    let faults ← [(a, firstMissing), (b, secondMissing)].filterMapM fun (path, isMissing) => do
      if !isMissing then return none
      match ← lookUp path with
      | .ok _ => return none
      | .error fault => return some (path, fault)
    faults.forM fun (path, fault) => complainOf path fault
    return 2
  if (isDirectory && otherIsDirectory) || (isDirectory && secondMissing && given.has 'r') ||
      (otherIsDirectory && firstMissing && given.has 'r') then
    diffDirectories setup maxLevels a b
  else
    let b' := if otherIsDirectory && !isDirectory then inside b (baseName a) else b
    let a' := if isDirectory && !otherIsDirectory then inside a (baseName b) else a
    diffFiles setup none a' b'

end Rebuild.Shell.Tool
