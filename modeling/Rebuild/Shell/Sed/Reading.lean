import Rebuild.Shell.Sed
import Rebuild.Text.CharClass

/-!
# How scripts for editing lines are written

A script comes in chunks, from options and from files. A fault is told with the number of characters
read so far.
-/

namespace Rebuild.Shell.Sed

/-- Where a chunk of a script comes from. -/
inductive Origin where
  | expression (number : Nat)
  | file (path : String)
deriving DecidableEq, Repr

/-- Which command waits for text that begins in the next chunk. -/
inductive TextKind where
  | append | insert | change
deriving DecidableEq, Repr

/-- What is still to be read of a chunk, what was read, and what is known about the script so far. -/
structure ReadState where
  rest : List Char
  count : Nat
  line : Nat
  commands : Array Instruction
  /-- The blocks that are open, the last of them first. -/
  blocks : List Nat
  pending : Option (Selection × TextKind)
  isExtended : Bool
  isQuiet : Bool

abbrev Reader := EStateM String ReadState

namespace Reader

/-- Reads a character, if there is one. -/
def next : Reader (Option Char) := do
  let s ← get
  match s.rest with
  | [] => return none
  | c :: rest =>
    set { s with rest := rest, count := s.count + 1, line := if c = '\n' then s.line + 1 else s.line }
    return some c

/-- Looks at the next character. -/
def peek : Reader (Option Char) := do
  return (← get).rest.head?

/-- Reads on to the first character that is not of some kind, and takes what was read. -/
def takeWhile (p : Char → Bool) : Reader (List Char) := do
  let s ← get
  let front := s.rest.takeWhile p
  set { s with
    rest := s.rest.drop front.length
    count := s.count + front.length
    line := s.line + front.count '\n' }
  return front

def isBlank (c : Char) : Bool := c = ' ' || c = '\t'

/-- Reads the next character that is not blank. -/
def nextNonBlank : Reader (Option Char) := do
  let _ ← takeWhile isBlank
  next

/-- Reads a number that begins with a character. -/
def number (c : Char) : Reader Nat := do
  let digits ← takeWhile Char.isDigit
  return (String.ofList (c :: digits)).toNat?.getD 0

/-- Reads the end of a command. -/
def endOfCommand : Reader Unit := do
  let _ ← takeWhile isBlank
  match ← peek with
  | none | some '}' | some '#' => return ()
  | some c =>
    let _ ← next
    if c ≠ '\n' && c ≠ ';' then throw "extra characters after command"

/-! ## Between delimiters -/

/-- Reads what stands between brackets up to the closing one, in at most `n` steps. -/
def betweenBrackets : (n : Nat) → (isFirst : Bool) → List Char → List Char × List Char
  | 0, _, rest => ([], rest)
  | _, _, [] => ([], [])
  | n + 1, isFirst, c :: rest =>
    if c = '\n' then ([], c :: rest)
    else if c = ']' && !isFirst then ([c], rest)
    else
      let isClass := c = '[' && rest.head?.any fun mark => mark = ':' || mark = '.' || mark = '='
      let name? := if isClass then Regex.untilMark (rest.headD ':') (rest.drop 1) else none
      match name? with
      | some (name, after) =>
        let mark := rest.headD ':'
        let (text, after) := betweenBrackets n false after
        (c :: mark :: name ++ mark :: ']' :: text, after)
      | none =>
        let (text, after) := betweenBrackets n (isFirst && c = '^') rest
        (c :: text, after)

/-- Reads up to a delimiter, in at most `n` steps. Quoted delimiters stand for themselves. -/
def untilDelimiter (delimiter : Char) (isRegex : Bool) : (n : Nat) → List Char →
    Option (List Char × List Char)
  | 0, _ | _, [] => none
  | n + 1, '\\' :: c :: rest =>
    let text := if c = delimiter && !(!isRegex && c = '&') then [c]
      else if c = 'n' && isRegex then ['\n']
      else if c = '\n' then (if isRegex then [c] else ['\\', c])
      else ['\\', c]
    (untilDelimiter delimiter isRegex n rest).map fun (front, after) => (text ++ front, after)
  | n + 1, c :: rest =>
    if c = delimiter then some ([], rest)
    else if c = '\n' then none
    else if c = '[' && isRegex then
      let (text, after) := betweenBrackets (rest.length + 1) true rest
      (untilDelimiter delimiter isRegex n after).map fun (front, after) =>
        (c :: text ++ front, after)
    else (untilDelimiter delimiter isRegex n rest).map fun (front, after) => (c :: front, after)

/-- Reads up to a delimiter, or fails. -/
def delimited (delimiter : Char) (isRegex : Bool) (fault : String) : Reader (List Char) := do
  let s ← get
  match untilDelimiter delimiter isRegex (s.rest.length + 1) s.rest with
  | some (front, rest) =>
    let used := s.rest.length - rest.length
    set { s with
      rest := rest
      count := s.count + used
      line := s.line + (s.rest.take used).count '\n' }
    return front
  | none =>
    let _ ← takeWhile (· ≠ '\n')
    throw fault

/-! ## Escapes -/

/-- The characters that letters stand for after a backslash. -/
def controls : List (Char × Char) :=
  [('a', '\x07'), ('f', '\x0c'), ('n', '\n'), ('r', '\r'), ('t', '\t'), ('v', '\x0b')]

/-- The number that at most `n` digits at the front of a text write, and what comes after them. -/
def numbered? (base n : Nat) (text : List Char) : Option (Nat × List Char) :=
  let digits := (text.take n).takeWhile fun c => (Numeral.digit? base c).isSome
  if digits.isEmpty then none
  else (Numeral.digits? base 0 digits).map fun value => (value % 256, text.drop digits.length)

/-- A text in which characters that were written by their numbers stand themselves, in at most `n`
steps. -/
def withNumbered : (n : Nat) → List Char → List Char
  | 0, text => text
  | _, [] => []
  | n + 1, '\\' :: c :: rest =>
    let found := match c with
      | 'd' => numbered? 10 3 rest
      | 'o' => numbered? 8 3 rest
      | 'x' => numbered? 16 2 rest
      | _ => none
    match found with
    | some (value, rest) => Char.ofNat value :: withNumbered n rest
    | none => '\\' :: c :: withNumbered n rest
  | n + 1, c :: rest => c :: withNumbered n rest

/-- A text without its backslashes, the characters after them standing for others or for themselves. -/
def unescaped : List Char → List Char
  | [] => []
  | '\\' :: c :: rest => (controls.lookup c).getD c :: unescaped rest
  | ['\\'] => []
  | c :: rest => c :: unescaped rest

/-! ## Parts of commands -/

/-- How expressions are written. -/
def dialect (isExtended : Bool) : RegexDialect :=
  ⟨isExtended, true, false, false, false, true, false, controls⟩

/-- Reads an expression from its text. -/
def search (text : List Char) (foldsCase byLines : Bool) : Reader Search := do
  if text.isEmpty then return ⟨none, foldsCase, byLines⟩
  match Regex.read (dialect (← get).isExtended) (withNumbered text.length text) with
  | .ok regex => return ⟨some regex, foldsCase, byLines⟩
  | .error fault => throw fault.message

/-- Reads the flags after an expression in an address. -/
def searchFlags : (n : Nat) → (foldsCase byLines : Bool) → Reader (Bool × Bool)
  | 0, foldsCase, byLines => return (foldsCase, byLines)
  | n + 1, foldsCase, byLines => do
    let _ ← takeWhile isBlank
    match ← peek with
    | some 'I' =>
      let _ ← next
      searchFlags n true byLines
    | some 'M' =>
      let _ ← next
      searchFlags n foldsCase true
    | _ => return (foldsCase, byLines)

/-- Reads an address that begins with a character, if one does. -/
def address? (c : Option Char) : Reader (Option RangeEnd) := do
  match c with
  | some '$' => return some (.address .last)
  | some c =>
    if c = '/' || c = '\\' then
      let delimiter ← if c = '\\' then pure ((← next).getD '\n') else pure c
      let text ← delimited delimiter true "unterminated address regex"
      let (foldsCase, byLines) ← searchFlags (← get).rest.length false false
      return some (.address (.search (← search text foldsCase byLines)))
    else if c.isDigit then
      let first ← number c
      let _ ← takeWhile isBlank
      if (← peek) ≠ some '~' then return some (.address (.line first))
      let _ ← next
      let _ ← takeWhile isBlank
      let step ← number '0'
      return some (.address (if step = 0 then .line first else .every first step))
    else if c = '+' || c = '~' then
      let _ ← takeWhile isBlank
      let count ← number '0'
      return some (if c = '+' then .further count else .multiple count)
    else return none
  | none => return none

/-- Reads the addresses of a command, and the first character after them. -/
def selection (c : Option Char) : Reader (Selection × Option Char) := do
  match ← address? c with
  | none => return (⟨none, none, false⟩, c)
  | some first =>
    let .address start := first
      | throw "invalid usage of +N or ~N as first address"
    let c ← nextNonBlank
    let (stop, c) ← if c = some ',' then do
        let some stop ← address? (← nextNonBlank) | throw "unexpected \x60,'"
        pure (some stop, ← nextNonBlank)
      else pure (none, c)
    let isSearch := match stop with
      | some (.address (.search _)) => true
      | _ => false
    if let .line 0 := start then
      if !isSearch then throw "invalid usage of line address 0"
    return (⟨some start, stop, false⟩, c)

/-- Reads the text of a command up to the end of a line without a backslash before it. -/
def textLines : (n : Nat) → Reader (List Char)
  | 0 => return ['\n']
  | n + 1 => do
    match ← next with
    | none | some '\n' => return ['\n']
    | some '\\' =>
      match ← next with
      | none => return ['\n']
      | some c => return '\\' :: c :: (← textLines n)
    | some c => return c :: (← textLines n)

/-- Reads the text of a command. -/
def text : Reader (List Char) := do
  let raw ← textLines ((← get).rest.length + 1)
  return unescaped (withNumbered raw.length raw)

/-- Reads a name up to the end of a line. -/
def path : Reader String := do
  let _ ← takeWhile isBlank
  let name ← takeWhile (· ≠ '\n')
  let _ ← next
  if name.isEmpty then throw "missing filename in r/R/w/W commands"
  return String.ofList name

/-- Reads a label. -/
def labelName : Reader String := do
  let _ ← takeWhile isBlank
  return String.ofList (← takeWhile fun c => c ≠ ';' && c ≠ '}' && !CharClass.has "space" c)

/-- Reads a number that may be left out at the end of a command. -/
def optionalNumber : Reader (Option Nat) := do
  let _ ← takeWhile isBlank
  let digits ← takeWhile Char.isDigit
  endOfCommand
  return (String.ofList digits).toNat?

/-- What replaces a match, from its text in at most `n` steps. -/
def replacement : (n : Nat) → List Char → List Replacement
  | 0, _ | _, [] => []
  | n + 1, '&' :: rest => .part 0 :: replacement n rest
  | n + 1, '\\' :: c :: rest =>
    if c.isDigit then .part (c.toNat - '0'.toNat) :: replacement n rest
    else if ['U', 'L', 'u', 'l', 'E'].contains c then .case c :: replacement n rest
    else
      let found := match c with
        | 'd' => numbered? 10 3 rest
        | 'o' => numbered? 8 3 rest
        | 'x' => numbered? 16 2 rest
        | _ => none
      match found with
      | some (value, rest) => .text [Char.ofNat value] :: replacement n rest
      | none => .text [(controls.lookup c).getD c] :: replacement n rest
  | n + 1, c :: rest => .text [c] :: replacement n rest

/-- The flags of a substitution. -/
structure Flags where
  foldsCase : Bool
  byLines : Bool
  isGlobal : Bool
  prints : Bool
  executes : Bool
  first : Option Nat
  writes : Option String

/-- Reads the flags of a substitution. -/
def substituteFlags : (n : Nat) → Flags → Reader Flags
  | 0, flags => return flags
  | n + 1, flags => do
    match ← peek with
    | none | some '}' | some '#' => return flags
    | some c =>
      let _ ← next
      match c with
      | '\n' | ';' => return flags
      | ' ' | '\t' | '\r' => substituteFlags n flags
      | 'i' | 'I' => substituteFlags n { flags with foldsCase := true }
      | 'm' | 'M' => substituteFlags n { flags with byLines := true }
      | 'e' => substituteFlags n { flags with executes := true }
      | 'p' =>
        if flags.prints then throw "multiple \x60p' options to \x60s' command"
        substituteFlags n { flags with prints := true }
      | 'g' =>
        if flags.isGlobal then throw "multiple \x60g' options to \x60s' command"
        substituteFlags n { flags with isGlobal := true }
      | 'w' => return { flags with writes := some (← path) }
      | _ =>
        if !c.isDigit then throw "unknown option to \x60s'"
        if flags.first.isSome then throw "multiple number options to \x60s' command"
        let first ← number c
        if first = 0 then throw "number option to \x60s' command may not be zero"
        substituteFlags n { flags with first := some first }

/-- Reads a substitution after its letter. -/
def substitution : Reader Substitution := do
  let fault := "unterminated \x60s' command"
  let some delimiter ← next | throw fault
  let pattern ← delimited delimiter true fault
  let raw ← delimited delimiter false fault
  let flags ← substituteFlags ((← get).rest.length + 1) ⟨false, false, false, false, false, none, none⟩
  let found ← search pattern flags.foldsCase flags.byLines
  let parts := replacement (raw.length + 1) raw
  let groups := (found.regex.map (·.groupCount)).getD 9
  let asked := Replacement.maxGroup parts
  if groups < asked then
    throw ("invalid reference \\" ++ toString asked ++ " on \x60s' command's RHS")
  return ⟨found, parts, flags.first.getD 1, flags.isGlobal, flags.prints, flags.executes,
    flags.writes⟩

/-- The characters of a part of a command that exchanges characters. -/
def listed : List Char → List Char
  | '\\' :: '\\' :: rest => '\\' :: listed rest
  | '\\' :: c :: rest =>
    match controls.lookup c with
    | some control => control :: listed rest
    | none => if c = '\n' then c :: listed rest else '\\' :: c :: listed rest
  | c :: rest => c :: listed rest
  | [] => []

/-- Reads an exchange of characters after its letter. -/
def letterPairs : Reader (List (Char × Char)) := do
  let fault := "unterminated \x60y' command"
  let some delimiter ← next | throw fault
  let first := listed (← delimited delimiter false fault)
  let second := listed (← delimited delimiter false fault)
  if first.length ≠ second.length then
    throw "strings for \x60y' command are different lengths"
  endOfCommand
  return first.zip second

/-! ## Commands -/

def addCommand (selection : Selection) (action : Action) : Reader Unit :=
  modify fun s => { s with commands := s.commands.push ⟨selection, action⟩ }

/-- The action of a command that only has a letter. -/
def plainAction? (c : Char) : Option Action :=
  match c with
  | '=' => some .number
  | 'd' => some .delete
  | 'D' => some .deleteFirst
  | 'F' => some .fileName
  | 'g' => some .copyFromHold
  | 'G' => some .appendFromHold
  | 'h' => some .copyToHold
  | 'H' => some .appendToHold
  | 'n' => some .next
  | 'N' => some .appendNext
  | 'p' => some .print
  | 'P' => some .printFirst
  | 'x' => some .exchange
  | 'z' => some .clear
  | _ => none

def textAction : TextKind → List Char → Action
  | .append, text => .append text
  | .insert, text => .insert text
  | .change, text => .change text

/-- Reads a command whose text follows. -/
def textCommand (selection : Selection) (kind : TextKind) : Reader Unit := do
  let _ ← takeWhile isBlank
  match ← peek with
  | none => throw "expected \\ after \x60a', \x60c' or \x60i'"
  | some '\\' =>
    let _ ← next
    match ← peek with
    | none => modify fun s => { s with pending := some (selection, kind) }
    | some '\n' =>
      let _ ← next
      addCommand selection (textAction kind (← text))
    | some _ => addCommand selection (textAction kind (← text))
  | some _ => addCommand selection (textAction kind (← text))

/-- Reads a command after its addresses, given its letter. -/
def command (selection : Selection) (c : Option Char) : Reader Unit := do
  let oneAddress : Reader Unit := do
    if selection.stop.isSome then throw "command only uses one address"
  match c with
  | none => throw "missing command"
  | some '#' =>
    if selection.start.isSome then throw "comments don't accept any addresses"
    let _ ← takeWhile (· ≠ '\n')
  | some '{' =>
    modify fun s => { s with blocks := s.commands.size :: s.blocks }
    addCommand selection (.beginBlock 0)
  | some '}' =>
    let s ← get
    match s.blocks with
    | [] => throw "unexpected \x60\x7d'"
    | start :: blocks =>
      if selection.start.isSome then throw "\x60\x7d' doesn't want any addresses"
      endOfCommand
      modify fun s => { s with
        blocks := blocks
        commands := s.commands.modify start fun c => { c with action := .beginBlock s.commands.size } }
      addCommand selection .endBlock
  | some ':' =>
    if selection.start.isSome then throw ": doesn't want any addresses"
    let name ← labelName
    if name = "" then throw "\":\" lacks a label"
    addCommand selection (.label name)
  | some 'b' => addCommand selection (.jump .always (← labelName))
  | some 't' => addCommand selection (.jump .replaced (← labelName))
  | some 'T' => addCommand selection (.jump .notReplaced (← labelName))
  | some 'a' => textCommand selection .append
  | some 'i' => textCommand selection .insert
  | some 'c' => textCommand selection .change
  | some 'q' =>
    oneAddress
    addCommand selection (.quit ((← optionalNumber).getD 0) true)
  | some 'Q' =>
    oneAddress
    addCommand selection (.quit ((← optionalNumber).getD 0) false)
  | some 'e' =>
    let _ ← takeWhile isBlank
    let words ← takeWhile (· ≠ '\n')
    addCommand selection (.execute words)
  | some 'l' => addCommand selection (.list (← optionalNumber))
  | some 'r' => addCommand selection (.readFile (← path))
  | some 'R' => addCommand selection (.readLine (← path))
  | some 'w' => addCommand selection (.write (← path))
  | some 'W' => addCommand selection (.writeFirst (← path))
  | some 's' => addCommand selection (.substitute (← substitution))
  | some 'y' => addCommand selection (.translate (← letterPairs))
  | some 'v' =>
    let version ← labelName
    let known := ["", "4", "4.0", "4.1", "4.2", "4.3", "4.4", "4.5", "4.6", "4.7", "4.8", "4.9"]
    if !known.contains version then
      throw "expected newer version of sed"
  | some c =>
    match plainAction? c with
    | some action =>
      endOfCommand
      addCommand selection action
    | none => throw ("unknown command: \x60" ++ String.singleton c ++ "'")

/-- Reads commands to the end of a chunk, at most `n`. -/
def commands : (n : Nat) → Reader Unit
  | 0 => return ()
  | n + 1 => do
    let _ ← takeWhile fun c => c = ';' || CharClass.has "space" c
    match ← next with
    | none => return ()
    | some c =>
      let (selection, c) ← selection (some c)
      if c = some '!' then
        let _ ← takeWhile fun c => c = ' ' || c = '\t'
        let c ← next
        if c = some '!' then throw "multiple \x60!'s"
        command { selection with isNegated := true } c
      else command selection c
      commands n

/-- Reads a chunk. -/
def chunk (isFirst : Bool) (content : List Char) : Reader Unit := do
  modify fun s => { s with
    rest := content
    count := 0
    line := 1
    isQuiet := s.isQuiet || (isFirst && content.take 2 = ['#', 'n']) }
  if let some (selection, kind) := (← get).pending then
    modify fun s => { s with pending := none }
    addCommand selection (textAction kind (← text))
  commands (content.length + 1)

end Reader

/-- A script that was read, and whether it says that lines are not to be printed. -/
structure Script where
  commands : Array Instruction
  isQuiet : Bool

/-- Why a script makes no sense, in words, and the status with which that ends. -/
abbrev ScriptFault := Nat × String

/-- Reads a script from its chunks. -/
def read (isExtended : Bool) (chunks : List (Origin × List Char)) : Except ScriptFault Script := do
  let start : ReadState := ⟨[], 0, 1, #[], [], none, isExtended, false⟩
  let s ← chunks.zipIdx.foldlM (fun s ((origin, content), i) =>
    match (Reader.chunk (i = 0) content).run s with
    | .ok _ s => Except.ok s
    | .error fault s =>
      if fault = RegexFault.lostClass.message then Except.error (4, fault)
      else match origin with
      | .expression number => Except.error
          (1, "-e expression #" ++ toString number ++ ", char " ++ toString s.count ++ ": " ++ fault)
      | .file path =>
        Except.error (1, "file " ++ path ++ " line " ++ toString s.line ++ ": " ++ fault)) start
  let commands := match s.pending with
    | some (selection, kind) => s.commands.push ⟨selection, Reader.textAction kind []⟩
    | none => s.commands
  if !s.blocks.isEmpty then throw (1, "-e expression #1, char 0: unmatched \x60\x7b'")
  return ⟨commands, s.isQuiet⟩

end Rebuild.Shell.Sed
