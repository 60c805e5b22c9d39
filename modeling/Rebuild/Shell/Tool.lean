import Rebuild.Shell.Scene

/-!
# Tools

A tool is a program that stands in the file tree: it gets words, does something in its process, and
ends with a status. Some tools run other programs, and so each is told how a process becomes another
program.

Tools share the form of their words. Options of one letter can stand together, an option with an
argument takes the rest of its word or the next word, long options begin with two hyphens and can be
shortened, and operands can stand between options.
-/

namespace Rebuild.Shell

/-- How a process becomes the program that some words name, if there is one. -/
abbrev Becoming := List String → Run (Except TreeFault Nat)

/-- A program in the file tree. -/
abbrev Tool := Becoming → List String → Run Nat

/-! ## Options -/

/-- Whether an option takes an argument. -/
inductive OptionArgument where
  | none
  | required
  | optional
deriving DecidableEq, Repr

/-- The options of a tool: its letters with what they take, and its long options with the letters for
which they stand. -/
structure OptionTable where
  letters : List (Char × OptionArgument)
  long : List (String × Char × OptionArgument)

/-- The table of letters written in a row, a colon standing after those that take an argument. -/
def OptionTable.ofLetters : List Char → List (Char × OptionArgument)
  | [] => []
  | c :: ':' :: rest => (c, .required) :: ofLetters rest
  | c :: rest => (c, .none) :: ofLetters rest

/-- A table of letters written in a row, and of long options, with a colon after those that take an
argument and an equals sign after those that may take one. -/
def OptionTable.of (letters : String) (long : List (String × Char)) : OptionTable where
  letters := ofLetters letters.toList
  long := long.map fun (name, letter) =>
    if name.endsWith ":" then ((name.dropEnd 1).toString, letter, .required)
    else if name.endsWith "=" then ((name.dropEnd 1).toString, letter, .optional)
    else (name, letter, .none)

/-- Words of a tool that were understood: its options in order, and its operands. -/
structure Given where
  options : List (Char × String)
  operands : List String
deriving Repr

namespace Given

def has (g : Given) (letter : Char) : Bool := g.options.any (·.1 = letter)

/-- The argument of an option, the last one if it was given several times. -/
def find? (g : Given) (letter : Char) : Option String := g.options.reverse.lookup letter

/-- The last of some options that was given. -/
def lastOf (g : Given) (letters : List Char) : Option Char :=
  (g.options.reverse.find? fun (c, _) => letters.contains c).map (·.1)

end Given

/-- Why the words of a tool make no sense. -/
inductive OptionFault where
  | unknownLetter (letter : Char)
  | unknownName (name : String)
  | ambiguousName (name : String) (candidates : List String)
  | missingArgument (letter : Char)
  | missingNameArgument (name : String)
  | unwantedArgument (name : String)
deriving DecidableEq, Repr

/-- The fault in words. -/
def OptionFault.message : OptionFault → String
  | unknownLetter letter => "invalid option -- '" ++ String.singleton letter ++ "'"
  | unknownName name => "unrecognized option '" ++ name ++ "'"
  | ambiguousName name candidates => "option '" ++ name ++ "' is ambiguous; possibilities:" ++
      String.join (candidates.map fun c => " '--" ++ c ++ "'")
  | missingArgument letter => "option requires an argument -- '" ++ String.singleton letter ++ "'"
  | missingNameArgument name => "option '--" ++ name ++ "' requires an argument"
  | unwantedArgument name => "option '--" ++ name ++ "' doesn't allow an argument"

namespace OptionTable

/-- Reads the letters of a word: the options, and the letter that still needs an argument. -/
def readLetters (table : OptionTable) : List Char →
    Except OptionFault (List (Char × String) × Option Char)
  | [] => .ok ([], none)
  | c :: rest =>
    match table.letters.lookup c with
    | none => .error (.unknownLetter c)
    | some .required =>
      if rest.isEmpty then .ok ([], some c) else .ok ([(c, String.ofList rest)], none)
    | some _ => do
      let (others, pending) ← table.readLetters rest
      return ((c, "") :: others, pending)

/-- The long option that a name, which may be shortened, stands for. -/
def findLong (table : OptionTable) (name : String) :
    Except OptionFault (String × Char × OptionArgument) :=
  match table.long.find? (·.1 = name) with
  | some found => .ok found
  | none =>
    let candidates := table.long.filter fun entry => entry.1.startsWith name
    match candidates with
    | [] => .error (.unknownName ("--" ++ name))
    | found :: others =>
      if others.all fun other => other.2 = found.2 then .ok found
      else .error (.ambiguousName ("--" ++ name) (candidates.map (·.1)))

/-- Reads the words of a tool. Without `permutes` the first operand ends the options. -/
def read (table : OptionTable) (permutes : Bool) : List String → Except OptionFault Given
  | [] => .ok ⟨[], []⟩
  | word :: rest => do
    let add (options : List (Char × String)) (g : Given) : Given :=
      { g with options := options ++ g.options }
    if word = "--" then return ⟨[], rest⟩
    if word.startsWith "--" then
      let text := (word.drop 2).toString
      let name := String.ofList (text.toList.takeWhile (· ≠ '='))
      let argument? := if name.length < text.length then some (text.drop (name.length + 1)).toString
        else none
      let (full, letter, takes) ← table.findLong name
      match takes, argument?, rest.head? with
      | .none, some _, _ => throw (.unwantedArgument full)
      | _, some argument, _ => return add [(letter, argument)] (← table.read permutes rest)
      | .required, none, some argument =>
        return add [(letter, argument)] (← table.read permutes rest.tail)
      | .required, none, none => throw (.missingNameArgument full)
      | _, none, _ => return add [(letter, "")] (← table.read permutes rest)
    else if word.startsWith "-" && 1 < word.length then
      let (options, pending) ← table.readLetters (word.toList.drop 1)
      match pending, rest.head? with
      | none, _ => return add options (← table.read permutes rest)
      | some letter, some argument =>
        return add (options ++ [(letter, argument)]) (← table.read permutes rest.tail)
      | some letter, none => throw (.missingArgument letter)
    else if permutes then
      let g ← table.read permutes rest
      return { g with operands := word :: g.operands }
    else return ⟨[], word :: rest⟩
termination_by words => words.length
decreasing_by all_goals (simp only [List.length_cons, List.length_tail]; omega)

end OptionTable

namespace Run

/-! ## What tools say -/

/-- Complains as the program that runs in the process. -/
def complainAsTool (text : String) : Run Unit := do
  complain ((← process).name ++ ": " ++ text)

/-- Complains about something and ends with a status. -/
def toolFault {α : Type} (status : Nat) (text : String) : Run α := do
  complainAsTool text
  exit status

/-- Complains about the words of a tool and ends with a status. -/
def usageFault {α : Type} (status : Nat) (text : String) : Run α := do
  let name := (← process).name
  complain (name ++ ": " ++ text)
  complain ("Try '" ++ name ++ " --help' for more information.")
  exit status

/-- Reads the words of a tool, which ends with a status if they make no sense. -/
def readOptions (status : Nat) (table : OptionTable) (permutes : Bool) (words : List String) :
    Run Given :=
  match table.read permutes words with
  | .ok given => return given
  | .error fault => usageFault status fault.message

/-- Complains about a file. -/
def complainOf (path : String) (fault : TreeFault) : Run Unit :=
  complainAsTool (path ++ ": " ++ fault.message)

/-- A text between quotation marks, as tools show words. -/
def quote (text : String) : String :=
  "'" ++ text ++ "'"

/-- Runs the program that words name in a process of its own, and tells how it ended. If there is no
such program, the process says so and ends with a status. -/
def callIn (become : Becoming) (words : List String) (onFault : TreeFault → Run Nat) : Run Ending := do
  let child ← fork id do
    match ← become words with
    | .ok status => return status
    | .error fault => onFault fault
  waitFor child

/-- Runs the program that words name, and gives what it prints. -/
def outputOf (become : Becoming) (words : List String) : Run Bytes := do
  let (_, source, sink) ← addPipe false
  let child ← fork (withDescriptor 1 sink) do
    match ← become words with
    | .ok status => return status
    | .error _ => return 127
  setDescriptor spareDescriptor (some source)
  let bytes := (← readAll spareDescriptor).toOption.getD []
  setDescriptor spareDescriptor none
  let _ ← waitFor child
  return bytes

/-- The number that a word writes in digits. -/
def number? (word : String) : Option Nat :=
  if word ≠ "" && word.all Char.isDigit then word.toNat? else none

/-- Runs a step for each item. The status is 1 if one of them failed, and 0 otherwise. -/
def forEach {α : Type} (items : List α) (step : α → Run Bool) : Run Nat :=
  items.foldlM (fun status item => do return if ← step item then status else 1) 0

/-- Prints text, and complains if that is not possible. -/
def print (text : String) : Run Nat := do
  match ← writeBytes 1 (Bytewise.toBytes text.toList) with
  | .ok _ => return 0
  | .error fault =>
    complainAsTool ("write error: " ++ fault.message)
    return 1

/-- What a path holds as text, where a hyphen stands for the input. -/
def readOperand (path : String) : Run (Except TreeFault (List Char)) := do
  let found ← if path = "-" then readAll 0 else readPath path
  return found.map Bytewise.ofBytes

/-- What each of some paths holds, the input if there are none. Paths that cannot be read are complained
about, and then the status is 1. -/
def readOperands (paths : List String) : Run (List (String × List Char) × Nat) := do
  let paths := if paths.isEmpty then ["-"] else paths
  paths.foldlM (fun (found, status) path => do
    match ← readOperand path with
    | .ok text => return (found ++ [(path, text)], status)
    | .error fault =>
      complainOf path fault
      return (found, 1)) ([], 0)

end Run

/-! ## Lines -/

namespace Lines

/-- The text cut after each line end, or before it if `keepEnds` does not hold. -/
def cut (keepEnds : Bool) (ending : Char) : (line : List Char) → List Char → List String
  | line, [] => if line.isEmpty then [] else [String.ofList line.reverse]
  | line, c :: rest =>
    if c = ending then
      String.ofList (if keepEnds then c :: line else line).reverse :: cut keepEnds ending [] rest
    else cut keepEnds ending (c :: line) rest

/-- The lines of a text, without their ends. -/
def of (text : List Char) : List String := cut false '\n' [] text

/-- The lines of a text, with their ends. -/
def withEnds (text : List Char) : List String := cut true '\n' [] text

/-- Lines as a text. -/
def join (lines : List String) : String :=
  String.join (lines.map (· ++ "\n"))

end Lines

/-- Input that is taken line by line: lines that were read already, each with its end, the beginning of
the next one, the descriptor from which more can come, and the character that ends lines. -/
structure Feed where
  ready : List String
  rest : List Char
  descriptor : Option Nat
  ending : Char

namespace Feed

/-- Input that is not there. -/
def nothing : Feed := ⟨[], [], none, '\n'⟩

/-- The lines of a text. -/
def ofText (ending : Char) (text : List Char) : Feed :=
  ⟨Lines.cut true ending [] text, [], none, ending⟩

/-- Cuts a text into complete lines and what follows them. -/
def split (ending : Char) (line : List Char) : List Char → List String × List Char
  | [] => ([], line.reverse)
  | c :: rest =>
    if c = ending then
      let (lines, last) := split ending [] rest
      (String.ofList (c :: line).reverse :: lines, last)
    else split ending (c :: line) rest

/-- Reads on until a line is ready, at most `n` times. -/
def fillWithin : (n : Nat) → Feed → Run Feed
  | n, feed => do
    match feed.ready, feed.descriptor, n with
    | _ :: _, _, _ => return feed
    | [], some descriptor, n + 1 =>
      let bytes := (← Run.readSome descriptor Run.chunkSize).toOption.getD []
      if bytes.isEmpty then fillWithin n { feed with descriptor := none }
      else
        let (lines, rest) := split feed.ending feed.rest.reverse (Bytewise.ofBytes bytes)
        fillWithin n { feed with ready := lines, rest := rest }
    | [], _, _ =>
      if feed.rest.isEmpty then return feed
      else return { feed with ready := [String.ofList feed.rest], rest := [] }

/-- Reads on until a line is ready, unless there is none. -/
def fill (feed : Feed) : Run Feed :=
  feed.fillWithin 1000000

/-- Takes the next line, if there is one. -/
def next (feed : Feed) : Run (Option String × Feed) := do
  let feed ← feed.fill
  match feed.ready with
  | line :: ready => return (some line, { feed with ready := ready })
  | [] => return (none, feed)

/-- The lines of an operand, which are read one after the other only from a pipe or a device. -/
def ofOperand (path : String) (ending : Char) : Run (Except TreeFault Feed) := do
  let fromInput ← match path, ← Run.opened? 0 with
    | "-", some (_, .source _) | "-", some (_, .device _) => pure true
    | _, _ => pure false
  if fromInput then return .ok ⟨[], [], some 0, ending⟩
  return (← Run.readOperand path).map (ofText ending)

end Feed

end Rebuild.Shell
