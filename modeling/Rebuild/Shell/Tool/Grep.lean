import Rebuild.Shell.Pattern
import Rebuild.Shell.Tool.Columns
import Rebuild.Text.Regex.Reading

/-!
# Searching for lines

`grep` prints the lines in which an expression matches, or where and how often it does.
-/

namespace Rebuild.Shell.Tool

open Run

/-- How lines are searched: by an expression, in whole words or whole lines only, or for lines without a
match. -/
structure LineSearch where
  regex : Regex
  foldsCase : Bool
  wholeWords : Bool
  wholeLines : Bool
  isInverted : Bool

namespace LineSearch

def subject (s : LineSearch) (line : String) : Subject :=
  ⟨line.toList.toArray, s.foldsCase, false⟩

/-- Whether a part of a line is a word, or stands between other words. -/
def isWhole (t : Subject) (i j : Nat) : Bool :=
  !(0 < i && (t.text[i - 1]?).any Subject.isWordChar) && !(t.text[j]?).any Subject.isWordChar

/-- The first part of a line that counts, from a position on. -/
def find? (s : LineSearch) (t : Subject) (i : Nat) : Option RegexMatch :=
  if s.wholeLines then
    if i = 0 && (s.regex.stops t 0).contains t.text.size then some ⟨0, t.text.size, []⟩ else none
  else if s.wholeWords then
    if s.regex.canMatch t i then
      (List.range (t.text.size + 1 - i)).findSome? fun k =>
        ((s.regex.stops t (i + k)).find? (isWhole t (i + k))).map fun j => ⟨i + k, j, []⟩
    else none
  else s.regex.search? t i

/-- Whether a line is selected. -/
def selects (s : LineSearch) (line : String) : Bool :=
  let t := s.subject line
  let matched := if s.wholeLines || s.wholeWords then (s.find? t 0).isSome else s.regex.matchesIn t
  matched != s.isInverted

/-- The parts of a line that count, with their offsets. -/
def parts (s : LineSearch) (line : String) : List (Nat × String) :=
  let t := s.subject line
  let found := Regex.allWithin t.text.size (s.find? t) (2 * t.text.size + 2) 0 false
  (found.filter fun m => m.start < m.stop).map fun m =>
    (m.start, String.ofList (t.slice m.start m.stop))

end LineSearch

/-- A line with its number, its offset, and whether it was selected. -/
structure SearchedLine where
  number : Nat
  offset : Nat
  text : String
  isSelected : Bool

/-- Searches lines up to the last one that counts. -/
def searchLines (s : LineSearch) : (limit : Option Nat) → (number offset : Nat) → List String →
    List SearchedLine
  | _, _, _, [] => []
  | limit, number, offset, line :: rest =>
    let isSelected := limit ≠ some 0 && s.selects line
    ⟨number, offset, line, isSelected⟩ ::
      searchLines s (if isSelected then limit.map (· - 1) else limit) (number + 1)
        (offset + line.length + 1) rest

/-- How lines are printed. -/
structure LinePrinting where
  given : Given
  search : LineSearch
  showsNames : Bool
  before : Nat
  after : Nat
  limit : Option Nat

namespace LinePrinting

/-- What stands before a line, with a mark after each part. -/
def front (p : LinePrinting) (name : String) (line offset : Nat) (mark : String) : String :=
  (if p.showsNames then name ++ (if p.given.has 'Z' then "\x00" else mark) else "") ++
    (if p.given.has 'n' then toString line ++ mark else "") ++
    (if p.given.has 'b' then toString offset ++ mark else "") ++
    (if p.given.has 'T' then "\t" else "")

/-- The lines that are shown: the selected ones and those around them. -/
def shown (p : LinePrinting) (lines : List SearchedLine) : List SearchedLine :=
  let numbers := (lines.filter (·.isSelected)).map (·.number)
  if p.before = 0 && p.after = 0 then lines.filter (·.isSelected)
  else lines.filter fun line =>
    numbers.any fun n => n ≤ line.number + p.before && line.number ≤ n + p.after

/-- The text for selected lines and those around them. -/
def text (p : LinePrinting) (name : String) (lines : List SearchedLine) (ending : String) : String :=
  let hasContext := 0 < p.before || 0 < p.after
  let (texts, _) := (p.shown lines).foldl (fun ((texts, last) : List String × Option Nat) line =>
    let gap := if hasContext && last.any (· + 1 < line.number) then ["--\n"] else []
    let texts := gap ++ texts
    if p.given.has 'o' then
      if !line.isSelected || p.search.isInverted then (texts, some line.number)
      else
        let parts := (p.search.parts line.text).map fun (i, part) =>
          p.front name line.number (line.offset + i) ":" ++ part ++ ending
        (parts.reverse ++ texts, some line.number)
    else
      let mark := if line.isSelected then ":" else "-"
      ((p.front name line.number line.offset mark ++ line.text ++ ending) :: texts, some line.number))
    ([], none)
  String.join texts.reverse

end LinePrinting

/-- The paths of the files in a directory, in order. -/
def filesBelow (tree : FileTree) (place : Place) (path : String) : List String :=
  let found := (tree.below place).filter fun (_, entry) => entry.isFile
  let names := found.map fun (place', _) => place'.drop place.length
  let key (names : List String) : String := "\x00".intercalate names
  (names.mergeSort fun a b => key a ≤ key b).map fun names =>
    let rest := Bytewise.ofText ("/".intercalate names)
    if path = "" then rest else inside path rest

/-- Whether the name of a file fits what was asked for. -/
def fitsNames (given : Given) (path : String) : Bool :=
  let wanted := given.options.filter (·.1 = '+')
  let unwanted := given.options.filter (·.1 = '!')
  let outside := given.options.filter (·.1 = '/')
  let fits (pattern text : String) : Bool := (Pattern.ofText pattern).matchesText text.toList
  let directories := (path.splitOn "/").dropLast
  (wanted.isEmpty || wanted.any fun (_, p) => fits p (baseName path)) &&
    !(unwanted.any fun (_, p) => fits p (baseName path)) &&
    !(outside.any fun (_, p) => directories.any (fits p))

/-- How many lines need to be selected at most in a file, with none shown after the last of them. -/
def enough? (p : LinePrinting) : Option Nat :=
  if ['q', 'l', 'L'].any p.given.has then some 1
  else if p.after = 0 then p.limit
  else none

/-- Reads at most `n` lines until so many of them as needed are selected, those read before being the last
first. -/
def readUntil (s : LineSearch) : (n needed : Nat) → Feed → (before : List String) → Run (List Char)
  | 0, _, _, before | _, 0, _, before => return before.reverse.flatMap String.toList
  | n + 1, needed + 1, feed, before => do
    match ← feed.next with
    | (none, _) => return before.reverse.flatMap String.toList
    | (some line, feed) =>
      let text := if line.endsWith (String.singleton feed.ending) then (line.dropEnd 1).toString else line
      let isSelected := s.selects text
      readUntil s n (if isSelected then needed else needed + 1) feed (line :: before)

/-- What there is to search in a file. -/
def readSearched (p : LinePrinting) (path : String) (ending : Char) :
    Run (Except TreeFault (List Char)) := do
  match enough? p with
  | none => readOperand path
  | some needed =>
    match ← Feed.ofOperand path ending with
    | .error fault => return .error fault
    | .ok feed =>
      if feed.descriptor.isNone then return .ok (feed.ready.flatMap String.toList)
      else return .ok (← readUntil p.search 10000000 needed feed [])

/-- The name under which a file is shown. -/
def nameOf (given : Given) (path : String) : String :=
  if path = "-" then (given.find? '=').getD "(standard input)" else path

/-- Where the last line ends that was selected. -/
def endOfLast (lines : List SearchedLine) : Nat :=
  lines.foldl (fun last line => if line.isSelected then line.offset + line.text.length + 1 else last) 0

/-- Searches a file. Tells whether a line was selected. -/
def searchFile (p : LinePrinting) (path : String) : Run (Except TreeFault Bool) := do
  let ending := if p.given.has 'z' then '\x00' else '\n'
  match ← readSearched p path ending with
  | .error fault => return .error fault
  | .ok text =>
    let name := nameOf p.given path
    let lines := searchLines p.search p.limit 1 0 (Lines.cut false ending [] text)
    let count := lines.countP (·.isSelected)
    let isFound := 0 < count
    if path = "-" && p.limit = some count then unread 0 (text.length - endOfLast lines)
    let isBinary := !p.given.has 'a' && !p.given.has 'z' && text.contains '\x00'
    if p.given.has 'q' then
      if isFound then exit 0
    else if p.given.has 'l' then
      if isFound then say (name ++ if p.given.has 'Z' then "\x00" else "\n")
    else if p.given.has 'L' then
      if !isFound then say (name ++ if p.given.has 'Z' then "\x00" else "\n")
    else if p.given.has 'c' then
      say ((if p.showsNames then name ++ ":" else "") ++ toString count ++ "\n")
    else if isBinary then
      if isFound then complainAsTool (name ++ ": binary file matches")
    else if isFound then
      let _ ← print (p.text name lines (String.singleton ending))
    return .ok isFound

/-- Says how the tool is called. -/
def grepUsage : Run Nat := do
  complain "Usage: grep [OPTION]... PATTERNS [FILE]..."
  complain "Try 'grep --help' for more information."
  return 2

/-- The options for searching lines. -/
def grepOptions : OptionTable :=
  OptionTable.of "EFGPe:f:iyvwxzclLm:oqsbHhnTZA:B:C:rRaIUd:D:" [("extended-regexp", 'E'),
    ("fixed-strings", 'F'), ("basic-regexp", 'G'), ("perl-regexp", 'P'), ("regexp:", 'e'),
    ("file:", 'f'), ("ignore-case", 'i'), ("no-ignore-case", 'J'), ("invert-match", 'v'),
    ("word-regexp", 'w'), ("line-regexp", 'x'), ("null-data", 'z'), ("count", 'c'),
    ("files-with-matches", 'l'), ("files-without-match", 'L'), ("max-count:", 'm'),
    ("only-matching", 'o'), ("quiet", 'q'), ("silent", 'q'), ("no-messages", 's'),
    ("byte-offset", 'b'), ("with-filename", 'H'), ("no-filename", 'h'), ("line-number", 'n'),
    ("initial-tab", 'T'), ("null", 'Z'), ("after-context:", 'A'), ("before-context:", 'B'),
    ("context:", 'C'), ("recursive", 'r'), ("dereference-recursive", 'R'), ("text", 'a'),
    ("include:", '+'), ("exclude:", '!'), ("exclude-dir:", '/'), ("color=", 'k'), ("colour=", 'k'),
    ("line-buffered", 'k'), ("binary", 'U'), ("label:", '='), ("binary-files:", 'U')]

/-- Reads the expressions in lines of a text, as one that matches where one of them does, and tells which
operators in them repeat nothing. -/
def readPatterns (way : Char) (text : String) : Except RegexFault (Regex × List Char) := do
  let dialect : RegexDialect := match way with
    | 'E' => .extended
    | 'P' => { RegexDialect.extended with isLoose := false, hasDigits := true }
    | _ => .basic
  let found ← (text.splitOn "\n").mapM fun line =>
    if way = 'F' then pure (Regex.ofText line.toList, []) else Regex.readFully dialect line.toList
  let idle := found.flatMap (·.2)
  return match found.map (·.1) with
    | [] => (.nothing, idle)
    | first :: rest => (rest.foldl .either first, idle)

/-- Searches for lines, where a letter tells how expressions are written unless options do. -/
def grepAs (usual : Char) : Tool := fun _ words => do
  let given ← match grepOptions.read true (withNumberOption 'C' words) with
    | .ok given => pure given
    | .error fault =>
      complainAsTool fault.message
      exit (← grepUsage)
  let isPattern (c : Char) : Bool := c = 'e' || c = 'f'
  let fromOptions := given.options.filter fun (c, _) => isPattern c
  let (patterns, operands) ← match fromOptions, given.operands with
    | [], [] => exit (← grepUsage)
    | [], pattern :: rest => pure (some pattern, rest)
    | options, operands => do
      let texts ← options.mapM fun (c, text) => do
        if c = 'e' then return [text]
        match ← readOperand text with
        | .ok found => return Lines.of found
        | .error fault =>
          complainOf text fault
          exit 2
      let texts := texts.flatten
      pure (if texts.isEmpty then none else some ("\n".intercalate texts), operands)
  let way := (given.lastOf ['E', 'F', 'G', 'P']).getD usual
  let regex ← match patterns with
    | none => pure (Regex.one ⟨false, []⟩)
    | some text =>
      match readPatterns way text with
      | .ok (regex, idle) =>
        idle.forM fun c => complainAsTool ("warning: " ++
          (if c = '{' then "\x7b...\x7d" else String.singleton c) ++ " at start of expression")
        pure regex
      | .error fault => toolFault 2 fault.message
  let number (letter : Char) : Run (Option Nat) := do
    match given.find? letter with
    | none => return none
    | some word =>
      match number? word with
      | some n => return some n
      | none =>
        if letter = 'm' then toolFault 2 "invalid max count"
        else toolFault 2 (word ++ ": invalid context length argument")
  let around ← number 'C'
  let before ← number 'B'
  let after ← number 'A'
  let limit ← number 'm'
  let isRecursive := given.has 'r' || given.has 'R'
  let foldsCase := (given.lastOf ['i', 'y', 'J']).any (· ≠ 'J')
  let operands := if !operands.isEmpty then operands else if isRecursive then [""] else ["-"]
  let showsNames := match given.lastOf ['H', 'h'] with
    | some c => c = 'H'
    | none => isRecursive || 1 < operands.length
  let printing : LinePrinting :=
    { given := given
      search := ⟨regex, foldsCase, given.has 'w', given.has 'x', given.has 'v'⟩
      showsNames := showsNames
      before := (before <|> around).getD 0
      after := (after <|> around).getD 0
      limit := limit }
  let search (path : String) : Run (Bool × Bool) := do
    match ← searchFile printing path with
    | .ok isFound => return (isFound, false)
    | .error fault =>
      if !given.has 's' then complainOf (nameOf given path) fault
      return (false, true)
  let (isFound, isFaulty) ← operands.foldlM (fun (isFound, isFaulty) path => do
    let start ← if isRecursive then lookUp (if path = "" then "." else path) else pure (.error .missing)
    let paths ← match start with
      | .ok (place, .directory _ _) =>
        pure ((filesBelow (← scene).tree place path).filter (fitsNames given))
      | _ => pure [path]
    paths.foldlM (fun (isFound, isFaulty) path => do
      let (found, fault) ← search path
      return (isFound || found, isFaulty || fault)) (isFound, isFaulty)) (false, false)
  return if isFaulty && !(isFound && given.has 'q') then 2 else if isFound then 0 else 1

def grep : Tool := grepAs 'G'

/-- A name for the tool that is not used any more. -/
def obsolete (name letter : String) (usual : Char) : Tool := fun become words => do
  complain (name ++ ": warning: " ++ name ++ " is obsolescent; using grep -" ++ letter)
  modifyProcess fun p => { p with name := "grep" }
  grepAs usual become words

def egrep : Tool := obsolete "egrep" "E" 'E'

def fgrep : Tool := obsolete "fgrep" "F" 'F'

end Rebuild.Shell.Tool
