import Rebuild.Shell.Tool.Numbers
import Rebuild.Shell.Tool.Files

/-!
# Tools that call others

Tools that run other programs, in other surroundings, for a limited time, or with words that they read;
tools that tell who and where one is; and the programs that do what the shell does by itself.
-/

namespace Rebuild.Shell.Tool

open Run

/-! ## Time -/

/-- The nanoseconds that a word tells: a decimal number, possibly with a letter for its unit. -/
def duration? (word : String) : Option Nat := do
  let (number, unit) := match word.toList.reverse with
    | 's' :: rest => (String.ofList rest.reverse, 1)
    | 'm' :: rest => (String.ofList rest.reverse, 60)
    | 'h' :: rest => (String.ofList rest.reverse, 3600)
    | 'd' :: rest => (String.ofList rest.reverse, 86400)
    | _ => (word, 1)
  let d ← Decimal.ofText? number
  match d.value with
  | none => some (Nat.pow 10 18)
  | some value => if value < 0 then none else some (value.toNat * unit * Nat.pow 10 9 / Nat.pow 10 d.places)

/-- Lets time pass. -/
def sleep : Tool := fun _ words => do
  let given ← readOptions 1 (OptionTable.of "" []) true words
  if given.operands.isEmpty then usageFault 1 "missing operand"
  let durations := given.operands.map fun word => (word, duration? word)
  let faulty := (durations.filter (·.2.isNone)).map (·.1)
  match faulty.getLast? with
  | none =>
    Run.sleep ((durations.filterMap (·.2)).foldl (· + ·) 0)
    return 0
  | some last =>
    faulty.dropLast.forM fun word => complainAsTool ("invalid time interval " ++ quote word)
    usageFault 1 ("invalid time interval " ++ quote last)

/-- The directives for a time in the form that an option names. -/
def isoDirectives? (precision : String) (glue zone : String) : Option String :=
  match precision with
  | "date" | "" => some "%Y-%m-%d"
  | "hours" => some ("%Y-%m-%d" ++ glue ++ "%H" ++ zone)
  | "minutes" => some ("%Y-%m-%d" ++ glue ++ "%H:%M" ++ zone)
  | "seconds" => some ("%Y-%m-%d" ++ glue ++ "%H:%M:%S" ++ zone)
  | "ns" => some ("%Y-%m-%d" ++ glue ++ "%H:%M:%S,%N" ++ zone)
  | _ => none

/-- Tells the time. -/
def date : Tool := fun _ words => do
  let table := OptionTable.of "d:f:r:Rs:u" [("date:", 'd'), ("file:", 'f'), ("iso-8601=", 'I'),
    ("reference:", 'r'), ("rfc-email", 'R'), ("rfc-2822", 'R'), ("rfc-3339:", '3'), ("set:", 's'),
    ("utc", 'u'), ("universal", 'u')]
  let words := words.map fun word =>
    if word.startsWith "-I" then "--iso-8601=" ++ (word.drop 2).toString else word
  let given ← readOptions 1 table true words
  let now := (← scene).now
  let time ← match given.find? 'd', given.find? 'r' with
    | some text, _ =>
      match Date.ofText? now text with
      | some time => pure time
      | none => toolFault 1 ("invalid date " ++ quote text)
    | none, some path =>
      match ← lookUp path with
      | .ok (_, entry) => pure ((← scene).tree.mtimeOf entry)
      | .error fault => toolFault 1 (path ++ ": " ++ fault.message)
    | none, none => pure now
  let format ← match given.operands with
    | [] => pure none
    | [word] =>
      if word.startsWith "+" then pure (some (word.drop 1).toString)
      else toolFault 1 ("invalid date " ++ quote word)
    | _ :: word :: _ => usageFault 1 ("extra operand " ++ quote word)
  let directives ← match format, given.lastOf ['I', 'R', '3'] with
    | some format, _ => pure format
    | none, some 'R' => pure "%a, %d %b %Y %H:%M:%S %z"
    | none, some c =>
      let precision := (given.find? c).getD ""
      match isoDirectives? precision (if c = 'I' then "T" else " ") "%:z" with
      | some directives => pure directives
      | none => usageFault 1 ("invalid argument " ++ quote precision ++ " for " ++
          quote (if c = 'I' then "--iso-8601" else "--rfc-3339"))
    | none, none => pure "%a %b %e %H:%M:%S %Z %Y"
  print (Date.format time directives ++ "\n")

/-! ## Variables -/

/-- The variables of the process, one line for each. -/
def variableLines (ending : String) : Run String := do
  return String.join ((← process).vars.toList.map fun (name, v) =>
    name ++ "=" ++ v.value.getD "" ++ ending)

/-- Words cut at blanks outside quotation marks. -/
def splitWords : (word : Option (List Char)) → (quoting : Option Char) → List Char → List String
  | word, _, [] => word.toList.map fun w => String.ofList w.reverse
  | word, some q, c :: rest =>
    if c = q then splitWords (some (word.getD [])) none rest
    else splitWords (some (c :: word.getD [])) (some q) rest
  | word, none, c :: rest =>
    if c = '"' || c = '\'' then splitWords (some (word.getD [])) (some c) rest
    else if c = ' ' || c = '\t' || c = '\n' then
      (word.toList.map fun w => String.ofList w.reverse) ++ splitWords none none rest
    else splitWords (some (c :: word.getD [])) none rest

/-- Makes the process another program, or ends with a status that tells why that is not possible. -/
def becomeOr (become : Becoming) (words : List String) (complaint : String → String) : Run Nat := do
  match ← become words with
  | .ok status => return status
  | .error fault =>
    complainAsTool (complaint (words.headD "") ++ ": " ++ fault.message)
    return if fault = .missing then 127 else 126

/-- Runs a program with other variables. -/
def env : Tool := fun become words => do
  let words := match words with
    | "-S" :: text :: rest => splitWords none none text.toList ++ rest
    | word :: rest => if word.startsWith "-S" then
        splitWords none none (word.drop 2).toString.toList ++ rest else words
    | [] => []
  let table := OptionTable.of "iu:0C:v" [("ignore-environment", 'i'), ("unset:", 'u'), ("null", '0'),
    ("chdir:", 'C'), ("debug", 'v')]
  let given ← readOptions 125 table false words
  let (isEmpty, operands) := match given.operands with
    | "-" :: rest => (true, rest)
    | operands => (given.has 'i', operands)
  if isEmpty then modifyProcess fun p => { p with vars := ∅ }
  given.options.forM fun (c, name) => do
    if c = 'u' then
      if name = "" || name.contains '=' then
        toolFault 125 ("cannot unset " ++ quote name ++ ": Invalid argument")
      modifyProcess fun p => { p with vars := ⟨p.vars.toList.filter (·.1 ≠ name)⟩ }
  let isBinding (word : String) : Bool := word.contains '='
  (operands.takeWhile isBinding).forM fun word => do
    let name := String.ofList (word.toList.takeWhile (· ≠ '='))
    let value := (word.drop (name.length + 1)).toString
    modifyProcess fun p => { p with vars := p.vars.bind name ⟨some value, true, false⟩ }
  let command := operands.dropWhile isBinding
  if command.isEmpty then return ← print (← variableLines (if given.has '0' then "\x00" else "\n"))
  if given.has '0' then usageFault 125 "cannot specify --null (-0) with command"
  if let some path := given.find? 'C' then
    match ← lookUp path with
    | .ok (place, .directory _ _) => modifyProcess fun p => { p with here := place }
    | .ok _ =>
      toolFault 125 ("cannot change directory to " ++ quote path ++ ": Not a directory")
    | .error fault =>
      toolFault 125 ("cannot change directory to " ++ quote path ++ ": " ++ fault.message)
  becomeOr become command quote

def printenv : Tool := fun _ words => do
  let given ← readOptions 2 (OptionTable.of "0" [("null", '0')]) true words
  let ending := if given.has '0' then "\x00" else "\n"
  if given.operands.isEmpty then return ← print (← variableLines ending)
  forEach given.operands fun name => do
    match (← process).vars.find? name with
    | some v =>
      say (v.value.getD "" ++ ending)
      return true
    | none => return false

/-! ## Other manners -/

/-- Runs a program as it is, which has no name to be nice, deaf or a leader here. -/
def plainly (table : OptionTable) (complaint : String → String) (ifNone : Run Nat) : Tool :=
  fun become words => do
    let given ← readOptions 125 table false words
    if given.operands.isEmpty then ifNone else becomeOr become given.operands complaint

def nice : Tool :=
  plainly (OptionTable.of "n:" [("adjustment:", 'n')]) quote (print "0\n")

def nohup : Tool :=
  plainly (OptionTable.of "" []) (fun word => "failed to run command " ++ quote word)
    (usageFault 125 "missing operand")

def setsid : Tool :=
  plainly (OptionTable.of "cfw" [("ctty", 'c'), ("fork", 'f'), ("wait", 'w')])
    (fun word => "failed to execute " ++ word) (usageFault 1 "no command specified")

/-- Runs a program for a limited time, together with all that it starts. -/
def timeout : Tool := fun become words => do
  let table := OptionTable.of "k:s:v" [("kill-after:", 'k'), ("signal:", 's'), ("verbose", 'v'),
    ("foreground", 'f'), ("preserve-status", 'p')]
  let given ← readOptions 125 table false words
  let fault (text : String) : Run Unit := usageFault 125 text
  let interval (word : String) : Run Nat := do
    match duration? word with
    | some nanos => return nanos
    | none =>
      fault ("invalid time interval " ++ quote word)
      return 0
  let number ← match given.find? 's' with
    | none => pure 15
    | some name =>
      let bare := if name.startsWith "SIG" then (name.drop 3).toString else name
      match Signal.ofText? bare with
      | some number => pure number
      | none => do
        fault (quote name ++ ": invalid signal")
        pure 0
  let killAfter ← match given.find? 'k' with
    | none => pure none
    | some word => do pure (some (← interval word))
  match given.operands with
  | [] | [_] =>
    complain ("Try '" ++ (← process).name ++ " --help' for more information.")
    return 125
  | limit :: command =>
    let nanos ← interval limit
    let self ← pid
    let child ← fork (fun p => { p with supervisor := self }) do
      becomeOr become command fun word => "failed to run command " ++ quote word
    let isOver (s : Scene) : Bool := !s.isAlive child
    await (if nanos = 0 then none else some nanos) isOver
    let isLate := !isOver (← scene)
    let sendAll (number : Nat) : Run Unit := do
      for (other, p) in (← scene).processes do
        if p.supervisor = self then
          let _ ← sendSignal other number
    if isLate then
      sendAll number
      if let some nanos := killAfter then
        if (← scene).isAlive child then
          await (some nanos) isOver
          if (← scene).isAlive child then sendAll 9
    let ending ← waitFor child
    match ending with
    | .killed signal =>
      if !isLate || signal = 9 then throw (.signal signal)
      return if given.has 'p' then 128 + signal else 124
    | .exited status => return if isLate && !given.has 'p' then 124 else status

/-! ## Words from the input -/

/-- What was read of items: the lines of items, and a quotation mark that is still open. -/
structure ReadItems where
  lines : List (List String)
  openQuote : Option Char

/-- Cuts text into items at blanks and lines. Quotation marks and backslashes keep characters from being
special; blanks at the end of a line make the next line part of it. -/
def itemsOf : (quoting : Option Char) → (line : List String) → (item : Option (List Char)) →
    (wasBlank : Bool) → List Char → ReadItems
  | some q, line, _, _, [] => ⟨if line.isEmpty then [] else [line], some q⟩
  | none, line, item, _, [] =>
    let line := line ++ item.toList.map fun w => String.ofList w.reverse
    ⟨if line.isEmpty then [] else [line], none⟩
  | some q, line, item, wasBlank, c :: rest =>
    if c = q then itemsOf none line (some (item.getD [])) false rest
    else if c = '\n' then ⟨if line.isEmpty then [] else [line], some q⟩
    else itemsOf (some q) line (some (c :: item.getD [])) wasBlank rest
  | none, line, item, wasBlank, '\n' :: rest =>
    let closed := line ++ item.toList.map fun w => String.ofList w.reverse
    if closed.isEmpty || wasBlank then itemsOf none closed none false rest
    else
      let read := itemsOf none [] none false rest
      { read with lines := closed :: read.lines }
  | none, line, item, _, '\\' :: d :: rest =>
    itemsOf none line (some (d :: item.getD [])) false rest
  | none, line, item, _, c :: rest =>
    if c = ' ' || c = '\t' then
      let closed := line ++ item.toList.map fun w => String.ofList w.reverse
      itemsOf none closed none (!closed.isEmpty) rest
    else if c = '"' || c = '\'' then itemsOf (some c) line (some (item.getD [])) false rest
    else itemsOf none line (some (c :: item.getD [])) false rest

/-- A line without its quotation marks and backslashes. -/
def withoutQuotes : (quoting : Option Char) → List Char → List Char
  | _, [] => []
  | some q, c :: rest => if c = q then withoutQuotes none rest else c :: withoutQuotes (some q) rest
  | none, '\\' :: c :: rest => c :: withoutQuotes none rest
  | none, c :: rest =>
    if c = '"' || c = '\'' then withoutQuotes (some c) rest else c :: withoutQuotes none rest

/-- Cuts words into batches of a number and of a size in bytes. -/
def batches (count size : Nat) : (batch : List String) → (used : Nat) → List String →
    List (List String)
  | batch, _, [] => if batch.isEmpty then [] else [batch.reverse]
  | batch, used, word :: rest =>
    let length := word.length + 1
    if !batch.isEmpty && (count ≤ batch.length || size < used + length) then
      batch.reverse :: batches count size [word] length rest
    else batches count size (word :: batch) (used + length) rest

/-- How many bytes the words of a call can have. -/
def callSize : Nat := 129000

/-- A status with which no program ends, for one that is not there, and one for one that cannot run. -/
def absentStatus : Nat := 1127

def uselessStatus : Nat := 1126

/-- Runs a call of which some can be under way at once, and gives those that still are, with the status so
far. -/
def startCall (become : Becoming) (limit : Nat) (command : List String) (before : List Pid)
    (finish : Pid → Run Nat) : Run (List Pid × Nat) := do
  let input ← addOpened (.device .empty)
  let child ← fork (withDescriptor 0 input) do
    match ← become command with
    | .ok status => return status
    | .error fault =>
      complainOf (command.headD "") fault
      return if fault = .missing then absentStatus else uselessStatus
  let underWay := before ++ [child]
  if underWay.length < limit then return (underWay, 0)
  await none fun s => underWay.any fun pid => !s.isAlive pid
  let s ← scene
  match underWay.find? fun pid => !s.isAlive pid with
  | some done => return (underWay.erase done, ← finish done)
  | none => return (underWay, 0)

/-- Reads words and calls a program with them. -/
def xargs : Tool := fun become words => do
  let table := OptionTable.of "0a:d:E:I:L:n:P:prs:tx" [("null", '0'), ("arg-file:", 'a'),
    ("delimiter:", 'd'), ("max-lines:", 'L'), ("max-args:", 'n'), ("max-procs:", 'P'),
    ("interactive", 'p'), ("no-run-if-empty", 'r'), ("max-chars:", 's'), ("verbose", 't'), ("exit", 'x'),
    ("replace:", 'I')]
  let words := match words with
    | "-i" :: rest => "-I{}" :: rest
    | words => words
  let given ← readOptions 1 table false words
  let number (letter : Char) : Run (Option Nat) := do
    match given.find? letter with
    | none => return none
    | some word =>
      match number? word with
      | some n => return some n
      | none => usageFault 1 ("invalid number \"" ++ word ++ "\" for -" ++ String.singleton letter ++
          " option")
  let way := given.lastOf ['I', 'L', 'n']
  if way = some 'I' && given.has 'n' then
    complainAsTool ("warning: options --max-args and --replace/-I/-i are mutually exclusive, " ++
      "ignoring previous --max-args value")
  let maxArgs ← number 'n'
  let maxLines ← number 'L'
  let maxProcesses ← number 'P'
  let maxSize ← number 's'
  let path := (given.find? 'a').getD "-"
  let text ← match ← readOperand path with
    | .ok text => pure text
    | .error fault =>
      toolFault 1 ("Cannot open input file " ++ quote path ++ ": " ++ fault.message)
  let delimiter := if given.has '0' then some '\x00' else (given.find? 'd').map fun word =>
    (Printf.unescaped true word).1.toList.headD '\x00'
  let command := if given.operands.isEmpty then ["echo"] else given.operands
  let isItem (item : String) : Bool := given.find? 'E' ≠ some item
  let (items, openQuote) : List (List String) × Option Char :=
    match delimiter with
    | some c => ((Lines.cut false c [] text).map fun item => [item], none)
    | none =>
      if way = some 'I' then
        let lines := (Lines.of text).map fun line =>
          (line.toList.dropWhile fun c => c = ' ' || c = '\t')
        ((lines.filter (!·.isEmpty)).map fun line => [String.ofList (withoutQuotes none line)], none)
      else
        let read := itemsOf none [] none false text
        (read.lines, read.openQuote)
  let calls : List (List String) := match way, given.find? 'I' with
    | some 'I', some mark => items.map fun line => command.map fun word =>
        if mark = "" then word else word.replace mark (line.headD "")
    | some 'L', _ =>
      (chunks (maxLines.getD 1) items.length items).map fun lines => command ++ lines.flatten
    | _, _ =>
      let all := items.flatten.takeWhile isItem
      let size := (command.map fun word => word.length + 1).foldl (· + ·) 0
      (batches (maxArgs.getD 1000000) ((maxSize.getD callSize) - size) [] 0 all).map (command ++ ·)
  let calls := if calls.isEmpty && !given.has 'r' && way ≠ some 'I' && openQuote.isNone then [command]
    else calls
  let name := command.headD ""
  let finish (child : Pid) : Run Nat := do
    match ((← scene).ended.lookup child).getD (.exited 127) with
    | .exited status =>
      if status = absentStatus then exit 127
      if status = uselessStatus then exit 126
      if status % 256 = 255 then
        complainAsTool (name ++ ": exited with status 255; aborting")
        exit 124
      return if status % 256 = 0 then 0 else 123
    | .killed signal =>
      complainAsTool (name ++ ": terminated by signal " ++ toString signal)
      exit 125
  let limit := match maxProcesses with
    | none => 1
    | some 0 => 1000
    | some n => n
  if let some mark := openQuote then
    complainAsTool ("unmatched " ++ (if mark = '\'' then "single" else "double") ++
      " quote; by default quotes are special to xargs unless you use the -0 option")
  let (underWay, status) ← calls.foldlM (fun (underWay, status) call => do
    if given.has 't' then complain (" ".intercalate call)
    let (underWay, found) ← startCall become limit call underWay finish
    return (underWay, max status found)) (([] : List Pid), 0)
  let status ← underWay.foldlM (fun status child => do
    let _ ← waitFor child
    return max status (← finish child)) status
  return if openQuote.isSome then 1 else status

/-! ## Who and where -/

/-- Prints a fact, whatever the words are. -/
def fact (text : String) : Tool := fun _ _ => print (text ++ "\n")

def whoami : Tool := fact "root"

def arch : Tool := fact "x86_64"

def groups : Tool := fact "root"

def nproc : Tool := fact "4"

def id : Tool := fun _ words => do
  let given ← readOptions 1 (OptionTable.of "agGnruz" [("group", 'g'), ("groups", 'G'), ("name", 'n'),
    ("real", 'r'), ("user", 'u'), ("zero", 'z')]) true words
  match given.operands.find? fun name => name ≠ "root" && name ≠ "0" with
  | some name => toolFault 1 (quote name ++ ": no such user")
  | none =>
    if (given.lastOf ['u', 'g', 'G']).isSome then print (if given.has 'n' then "root\n" else "0\n")
    else print "uid=0(root) gid=0(root) groups=0(root)\n"

def uname : Tool := fun _ words => do
  let given ← readOptions 1 (OptionTable.of "asnrvmpio" [("all", 'a'), ("kernel-name", 's'),
    ("nodename", 'n'), ("kernel-release", 'r'), ("machine", 'm'), ("operating-system", 'o')]) true
    words
  let facts := [('s', "Linux"), ('n', "localhost"), ('r', "6.1.0"), ('v', "#1 SMP"), ('m', "x86_64"),
    ('o', "GNU/Linux")]
  let wanted := facts.filter fun (c, _) => given.has 'a' || given.has c
  let shown := if wanted.isEmpty then ["Linux"] else wanted.map (·.2)
  print (" ".intercalate shown ++ "\n")

def tty : Tool := fun _ words => do
  if !words.contains "-s" then say "not a tty\n"
  return 1

def which : Tool := fun _ words => do
  let given ← readOptions 1 (OptionTable.of "as" []) true words
  if given.operands.isEmpty then return 1
  let path := (((← process).vars.find? "PATH").bind (·.value)).getD ""
  forEach given.operands fun name => do
    let candidates := if name.contains '/' then [name]
      else (path.splitOn ":").map fun directory => inside (if directory = "" then "." else directory) name
    let found ← candidates.filterM fun candidate => do
      let s ← scene
      return match ← lookUp candidate with
        | .ok (_, entry) => !entry.isDirectory && s.tree.modeOf entry &&& 0o111 ≠ 0
        | .error _ => false
    let shown := if given.has 'a' then found else found.take 1
    if !given.has 's' then shown.forM fun path => say (path ++ "\n")
    return !found.isEmpty

/-! ## What the shell does by itself -/

def trueTool : Tool := fun _ _ => return 0

def falseTool : Tool := fun _ _ => return 1

/-- Waits until all that was written is safe, which it is at once. -/
def sync : Tool := fun _ _ => return 0

/-- Whether a word is made of options for printing words. -/
def isEchoOption (word : String) : Bool :=
  word.startsWith "-" && 1 < word.length &&
    (word.toList.drop 1).all fun c => c = 'n' || c = 'e' || c = 'E'

def echo : Tool := fun _ words => do
  let options := (words.takeWhile isEchoOption).flatMap fun word => word.toList.drop 1
  let text := " ".intercalate (words.dropWhile isEchoOption)
  let interprets := (options.reverse.find? fun c => c = 'e' || c = 'E') = some 'e'
  let (shown, goesOn) := if interprets then Printf.unescaped true text else (text, true)
  print (shown ++ if options.contains 'n' || !goesOn then "" else "\n")

def printf : Tool := fun _ words => do
  let words := if words.head? = some "--" then words.tail else words
  match words with
  | [] => usageFault 1 "missing operand"
  | format :: rest =>
    let printed := Printf.words true format rest
    let status ← print printed.text
    printed.complaints.forM complainAsTool
    if let some fault := printed.fault then toolFault 1 fault
    return if printed.complaints.isEmpty then status else 1

def test : Tool := fun _ words => do
  match Condition.holds (← facts) words with
  | .ok holds => return if holds then 0 else 1
  | .error text => toolFault 2 text

def testBracket : Tool := fun become words => do
  if words.getLast? ≠ some "]" then toolFault 2 "missing ']'"
  test become words.dropLast

def pwd : Tool := fun _ _ => do
  print (pathOf (← process).here ++ "\n")

/-- Sends a signal to processes. -/
def kill : Tool := fun _ words => do
  let (name, words) := match words with
    | "-s" :: name :: rest => (some name, rest)
    | word :: rest =>
      if word.startsWith "-" && word ≠ "--" then (some (word.drop 1).toString, rest) else (none, words)
    | [] => (none, [])
  if name = some "l" then
    match words with
    | [] => return ← print (Lines.join (Signal.names.drop 1))
    | word :: _ =>
      match number? word, Signal.ofText? word with
      | some n, _ => return ← print (Signal.name (if 128 < n then n - 128 else n) ++ "\n")
      | none, some n => return ← print (toString n ++ "\n")
      | none, none => toolFault 1 ("unknown signal name " ++ word)
  let bare := name.map fun name => if name.startsWith "SIG" then (name.drop 3).toString else name
  let some number := (bare.map Signal.ofText?).getD (some 15)
    | toolFault 1 ("invalid argument " ++ name.getD "")
  forEach (words.filter (· ≠ "--")) fun word => do
    match number? word with
    | none =>
      complainAsTool ("failed to parse argument: " ++ quote word)
      return false
    | some target =>
      if ← sendSignal target number then return true
      complainAsTool ("(" ++ word ++ "): No such process")
      return false

end Rebuild.Shell.Tool
