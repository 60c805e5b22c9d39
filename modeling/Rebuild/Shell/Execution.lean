import Rebuild.Shell.Builtin
import Rebuild.Shell.Grammar
import Rebuild.Shell.Toolbox

/-!
# Running commands

`execute` runs a command to its end and tells its status, 0 meaning success. A command that is left
early throws how. Commands can be nested in each other without end, by calls and by loops, and so
running takes a number of steps after which the shell gives up.

Subshells, the parts of a pipeline and the programs that a shell calls run in processes of their own,
which begin as copies of the one that starts them.
-/

namespace Rebuild.Shell

/-- How a command runs: whether its failure is looked at, so that it does not end the shell, and whether
nothing is left to do after it. -/
structure Manner where
  isTested : Bool
  isLast : Bool
deriving DecidableEq, Repr

/-- A way to run commands. -/
abbrev Executor := Manner → Command → Run Nat

namespace Run

/-- A command with a status of its own in the middle of others. -/
def plainly : Manner := ⟨false, false⟩

def tested : Manner := ⟨true, false⟩

/-! ## Scripts -/

/-- Notes on which line the shell is. Within a function its first line is the first. -/
def setLine (line : Nat) : Run Unit :=
  modifyProcess fun p => { p with line := if p.firstLine = 0 then line else line + 1 - p.firstLine }

/-- Runs a script command by command, at most `n` of them. The last one may be the last of the
process. -/
def runReader (ex : Executor) (manner : Manner) : (n : Nat) → (status : Nat) → Reader → Run Nat
  | 0, status, _ => return status
  | n + 1, status, reader => do
    match readCommand { reader with aliases := (← process).aliases } with
    | .error (line, fault) =>
      modifyProcess fun p => { p with line := line }
      shellFault ("Syntax error: " ++ fault.message)
    | .ok found =>
      if found.isOver then return status
      if found.command.isNothing then runReader ex manner n status found.reader
      else
        let isLast := manner.isLast && found.reader.isAtEnd
        let status ← ex ⟨manner.isTested, isLast⟩ found.command
        runReader ex manner n status found.reader

/-- Runs a script. Its status is 0 if there is nothing to run in it. -/
def runText (ex : Executor) (manner : Manner) (text : String) : Run Nat := do
  runReader ex manner text.length.succ 0 (.start text (← process).aliases)

/-- Runs what is to be done on the signals that came in. -/
def runTraps (ex : Executor) : Run Unit := do
  let p ← process
  if !p.pending.isEmpty then
    modifyProcess fun p => { p with pending := [] }
    for number in p.pending do
      if let some text := (← process).traps.lookup number then
        let status := (← process).status
        let _ ← runText ex plainly text
        modifyProcess fun p => { p with status := status }

/-- Notes the status of a command. If it is a failure that nobody looks at, it may end the shell. -/
def settle (ex : Executor) (manner : Manner) (status : Nat) : Run Nat := do
  modifyProcess fun p => { p with status := status }
  runTraps ex
  if status ≠ 0 && !manner.isTested && (← process).options.contains 'e' then exit status
  return status

/-- How an action ended: with a status, or left early. -/
def outcome (act : Run Nat) : Run (Except Leave Nat) :=
  tryCatch (do return .ok (← act)) fun leave => return .error leave

/-- Runs something as a whole shell, to whose end belongs what its trap says. -/
def asShell (ex : Executor) (act : Run Nat) : Run Nat := do
  let status ← match ← outcome act with
    | .ok status => pure status
    | .error (.signal number) => throw (.signal number)
    | .error leave => pure leave.ending.status
  match (← process).traps.lookup 0 with
  | none | some "" => return status
  | some text =>
    modifyProcess fun p => { p with status := status, traps := p.traps.filter (·.1 ≠ 0), loops := 0 }
    match ← outcome (runText ex plainly text) with
    | .ok _ => return status
    | .error (.signal number) => throw (.signal number)
    | .error leave => return leave.ending.status

/-! ## Processes of a shell -/

/-- A process as a copy of a shell begins. -/
def asCopy (p : Process) : Process :=
  { p with traps := keptTraps p.traps }

/-- Waits for a process to end and tells its status. That a signal ended it is said aloud. -/
def awaitEnd (child : Pid) : Run Nat := do
  let ending ← waitFor child
  if let .killed number := ending then
    if number ≠ 2 && number ≠ brokenPipe then complain (Signal.epitaph number)
  return ending.status

/-- Whether the shell has to stay until the end, because it still has something to do then. -/
def hasTraps : Run Bool := do
  return (← process).traps.any (·.2 ≠ "")

/-- What a script prints, without the line ends at its end. -/
def capture (ex : Executor) (script : Command) : Run String := do
  if script.isNothing then return ""
  let (_, source, sink) ← addPipe false
  let child ← fork (fun p => withDescriptor 1 sink (asCopy p)) (asShell ex (ex ⟨false, true⟩ script))
  setDescriptor spareDescriptor (some source)
  let printed ← readAll spareDescriptor
  setDescriptor spareDescriptor none
  let status ← awaitEnd child
  modifyProcess fun p => { p with captured := status }
  let text := (Bytewise.ofBytes (printed.toOption.getD [])).filter (· ≠ '\x00')
  return String.ofList (text.reverse.dropWhile (· = '\n')).reverse

/-- Runs the commands of a pipeline side by side. They do not wait for each other, nor does the shell if
they run in the background. -/
def startPipeline (ex : Executor) (manner : Manner) (inBackground : Bool) :
    (input : Option OpenId) → List Command → Run (List Pid)
  | _, [] => return []
  | input, command :: rest => do
    let (output, next) ← if rest.isEmpty then pure (none, none) else do
      let (_, source, sink) ← addPipe false
      pure (some sink, some source)
    let isolated ← if inBackground && input.isNone then pure (some (← addOpened (.device .empty)))
      else pure input
    let connect (p : Process) : Process :=
      let p := asCopy p
      let p := isolated.elim p fun id => withDescriptor 0 id p
      output.elim p fun id => withDescriptor 1 id p
    let child ← fork connect (asShell ex (ex ⟨manner.isTested, true⟩ command))
    return child :: (← startPipeline ex manner inBackground next rest)

/-- Runs a pipeline, whose status is that of its last command. -/
def pipeline (ex : Executor) (manner : Manner) (commands : List Command) : Run Nat := do
  let children ← startPipeline ex manner false none commands
  children.foldlM (fun _ child => awaitEnd child) 0

/-- Sets off a command beside the shell. -/
def background (ex : Executor) (body : Command) : Run Nat := do
  let commands := match body with
    | .pipeline commands => commands
    | _ => [body]
  let children ← startPipeline ex plainly true none commands
  modifyProcess fun p =>
    { p with children := p.children ++ children, lastBackground := children.getLast? }
  return 0

/-- Runs a command in a process of its own. -/
def subshell (ex : Executor) (manner : Manner) (body : Command) : Run Nat := do
  if manner.isLast && !(← hasTraps) then ex manner body
  else awaitEnd (← fork asCopy (asShell ex (ex ⟨manner.isTested, true⟩ body)))

/-! ## Redirections -/

/-- Why a file cannot be opened, as the shell puts it. -/
def openingFault (fault : TreeFault) (text : String) : String :=
  if fault = .missing || fault = .notDirectory then text else fault.message

/-- Opens a file for a redirection. -/
def openFor (mode : RedirectMode) (path : String) : Run OpenId := do
  let newMode ← newMode 0o666
  let keeps := (← process).options.contains 'C' && mode = .write
  let opening : FileTree.Opening := match mode with
    | .read => ⟨none, false⟩
    | .write | .overwrite => ⟨some newMode, true⟩
    | _ => ⟨some newMode, false⟩
  if keeps then
    if let .ok (_, .file _) ← lookUp path then
      shellFault ("cannot create " ++ path ++ ": File exists")
  match ← openPath path opening (mode = .append) with
  | .ok id => return id
  | .error fault =>
    if mode = .read then
      shellFault ("cannot open " ++ path ++ ": " ++ openingFault fault "No such file")
    else shellFault ("cannot create " ++ path ++ ": " ++ openingFault fault "Directory nonexistent")

/-- Makes a descriptor lead to where another one leads. -/
def duplicate (descriptor : Nat) (word : String) : Run Unit := do
  match word.toList with
  | ['-'] => setDescriptor descriptor none
  | [c] =>
    if !c.isDigit then shellFault "Syntax error: Bad fd number"
    match (← process).descriptors.lookup (c.toNat - '0'.toNat) with
    | some id => setDescriptor descriptor (some id)
    | none => shellFault (word ++ ": Bad file descriptor")
  | _ => shellFault "Syntax error: Bad fd number"

/-- Makes a descriptor lead to a text that is read from it. -/
def present (descriptor : Nat) (text : String) : Run Unit := do
  let (pipe, source, _) ← addPipe false
  modifyScene (·.write pipe (Bytewise.toBytes text.toList))
  setDescriptor descriptor (some source)

/-- A redirection whose word was expanded. -/
structure Opening where
  descriptor : Nat
  mode : RedirectMode
  word : String

/-- Expands the word of a redirection. -/
def expandRedirect (ex : Executor) : Redirect → Run Opening
  | .mk descriptor mode target => do return ⟨descriptor, mode, ← textOf (capture ex) target⟩

/-- Carries out a redirection. -/
def redirect (o : Opening) : Run Unit := do
  match o.mode with
  | .duplicate => duplicate o.descriptor o.word
  | .document => present o.descriptor o.word
  | _ =>
    let id ← openFor o.mode o.word
    setDescriptor o.descriptor (some id)
    awaitPartner id

/-- Carries out redirections. An error makes for a status, unless it has to end the shell. -/
def redirectAll (openings : List Opening) : Run Nat :=
  tryCatch (do
    openings.forM redirect
    return 0) fun
    | .fault status => return status
    | leave => throw leave

/-- Makes descriptors lead to where they led before. -/
def restoreDescriptors (openings : List Opening) (before : List (Nat × OpenId)) : Run Unit :=
  if openings.isEmpty then return ()
  else modifyProcess fun p =>
    let touched := openings.map (·.descriptor)
    { p with descriptors := before.filter (fun (d, _) => touched.contains d) ++
        p.descriptors.filter fun (d, _) => !touched.contains d }

/-- Runs something with redirections in force, which end with it. -/
def withRedirects (ex : Executor) (redirects : List Redirect) (act : Run Nat) : Run Nat := do
  let openings ← redirects.mapM (expandRedirect ex)
  let before := (← process).descriptors
  let found ← outcome do
    let status ← redirectAll openings
    if status = 0 then act else return status
  restoreDescriptors openings before
  match found with
  | .ok status => return status
  | .error leave => throw leave

/-! ## Programs -/

/-- Where a program of a name stands: a path, which the search path leads to if the name is none. -/
def findProgram (searchPath name : String) : Run (Except TreeFault (String × Entry)) := do
  let lookFor (path : String) : Run (Except TreeFault (String × Entry)) := do
    match ← lookUp path with
    | .ok (_, .directory _ _) => return .error .refused
    | .ok (_, entry) =>
      if (← scene).tree.modeOf entry &&& 0o111 = 0 then return .error .refused
      return .ok (path, entry)
    | .error fault => return .error fault
  if name.toList.contains '/' then lookFor name
  else
    let directories := searchPath.splitOn ":"
    directories.foldlM (fun found directory => do
      match found with
      | .ok program => return .ok program
      | .error before =>
        match ← lookFor (if directory = "" then name else directory ++ "/" ++ name) with
        | .error .missing | .error .notDirectory => return .error before
        | .error .refused =>
          match ← lookUp (directory ++ "/" ++ name) with
          | .ok (_, .directory _ _) => return .error before
          | _ => return .error .refused
        | found => return found) (.error .missing)

/-- The path along which programs are searched for. -/
def searchPath : Run String := do
  return (← variableValue? "PATH").getD "/usr/local/sbin:/usr/local/bin:/usr/sbin:/usr/bin:/sbin:/bin"

/-- A process that becomes another program keeps the variables that are exported. -/
def asProgram (name : String) (args : List String) (p : Process) : Process :=
  { p with
    name := name
    builtin := none
    params := args
    vars := ⟨p.vars.toList.filter fun (_, v) => v.isExported && v.value.isSome⟩
    locals := []
    functions := []
    aliases := []
    options := []
    traps := keptTraps p.traps
    pending := []
    status := 0
    captured := 0
    line := 0
    firstLine := 0
    loops := 0
    calls := 0
    lastBackground := none
    children := []
    optionOffset := 0 }

/-- Where a variable stands among those that a shell hands on. -/
def bucket (name : String) : Nat :=
  let codes := name.toList.map Char.toNat
  (16 * codes.headD 0 + codes.foldl (· + ·) 0) % 39

/-- A shell hands variables on in the order of its table. -/
def inTableOrder (vars : Bindings Variable) : Bindings Variable :=
  ⟨vars.toList.mergeSort fun a b => bucket a.1 ≤ bucket b.1⟩

/-- What a shell is told in words: its options, a script in a word, and other words. -/
def startShell (ex : Executor) (words : List String) : Run Nat := do
  let self ← pid
  modifyProcess fun p => { p with
    shellId := self
    vars := ((p.vars.bind "IFS" ⟨some " \t\n", false, false⟩).bind "OPTIND" ⟨some "1", false, false⟩).bind
      "PS4" ⟨some "+ ", false, false⟩ }
  setVariable "PWD" (← currentPath) true
  let letters := fun (word : String) => (word.toList.drop 1)
  let isOption := fun (word : String) =>
    1 < word.length && (word.startsWith "-" || word.startsWith "+") && word ≠ "--"
  let rec options (wantsScript : Bool) : List String → Run (Bool × List String)
    | [] => return (wantsScript, [])
    | "--" :: rest | "-" :: rest => return (wantsScript, rest)
    | word :: rest => do
      if !isOption word then return (wantsScript, word :: rest)
      let isOn := word.startsWith "-"
      (letters word).forM fun c => if c = 'c' || c = 'o' then pure () else setOption c isOn
      let wantsScript := wantsScript || (letters word).contains 'c'
      if (letters word).contains 'o' then
        match rest with
        | name :: rest =>
          setOptionNamed name isOn
          options wantsScript rest
        | [] => return (wantsScript, [])
      else options wantsScript rest
  asShell ex do
    let (wantsScript, operands) ← options false words
    let readsInput := (← process).options.contains 's'
    match wantsScript, operands with
    | true, [] => shellFault "-c requires an argument"
    | true, text :: others =>
      modifyProcess fun p =>
        { p with name := others.headD p.name, params := others.tail, line := 1 }
      runText ex ⟨false, true⟩ text
    | false, path :: params =>
      if readsInput then
        modifyProcess fun p => { p with params := operands }
        let text ← readAll 0
        runText ex plainly (String.ofList (Bytewise.ofBytes (text.toOption.getD [])))
      else
        match ← lookUp path with
        | .ok (_, .directory _ _) =>
          complainAsShell ("cannot open " ++ path ++ ": Is a directory")
          return 2
        | _ =>
          match ← readPath path with
          | .error fault =>
            complainAsShell ("cannot open " ++ path ++ ": " ++ openingFault fault "No such file")
            return 2
          | .ok bytes =>
            modifyProcess fun p => { p with name := path, params := params }
            runText ex plainly (String.ofList (Bytewise.ofBytes bytes))
    | false, [] =>
      let text ← readAll 0
      runText ex plainly (String.ofList (Bytewise.ofBytes (text.toOption.getD [])))

/-- The program and its argument that the first line of a script names. -/
def interpreter? (bytes : Bytes) : Option (List String) :=
  match Bytewise.ofBytes (bytes.take 256) with
  | '#' :: '!' :: rest =>
    let line := (rest.takeWhile (· ≠ '\n')).dropWhile fun c => c = ' ' || c = '\t'
    let name := line.takeWhile fun c => c ≠ ' ' && c ≠ '\t'
    let argument := (line.drop name.length).dropWhile fun c => c = ' ' || c = '\t'
    let argument := (argument.reverse.dropWhile fun c => c = ' ' || c = '\t').reverse
    some (String.ofList name :: if argument.isEmpty then [] else [String.ofList argument])
  | _ => none

/-- The names under which the shell stands in the file tree. -/
def shellNames : List String := ["sh", "bash", "dash"]

/-- Runs a program that was found in this process, given the words that it is called with. Scripts are
left to their interpreters, at most `n` of them in a row. -/
def runProgram (ex : Executor) (become : Becoming) (path : String) (entry : Entry)
    (words : List String) : (n : Nat) → Run (Except TreeFault Nat)
  | 0 => return .error .tooManyLinks
  | n + 1 => do
    match entry with
    | .program name =>
      modifyProcess (asProgram (words.headD name) words.tail)
      if shellNames.contains name then return .ok (← startShell ex words.tail)
      match Toolbox.find? name with
      | some tool => return .ok (← tool become words.tail)
      | none => return .error .missing
    | _ =>
      match interpreter? ((← scene).tree.contentsOf entry) with
      | some call =>
        match ← findProgram "" (call.headD "") with
        | .ok (found, entry) => runProgram ex become found entry (call ++ path :: words.tail) n
        | .error fault => return .error fault
      | none => runProgram ex become "/bin/sh" (.program "sh") ("sh" :: path :: words.tail) n
termination_by structural n => n

/-- Makes the process the program that words name, if there is one, in at most `n` steps. -/
def become (ex : Executor) : (n : Nat) → Becoming
  | 0, _ => return .error .missing
  | n + 1, words => do
    match ← findProgram (← searchPath) (words.headD "") with
    | .error fault => return .error fault
    | .ok (path, entry) => runProgram ex (become ex n) path entry words 8

/-- How many programs can become each other in a row. -/
def maxBecoming : Nat := 100

/-- How long it takes before a program begins to work. -/
def startTime : Nat := 50000

/-- Makes the process the program that words name. -/
def takeOver (ex : Executor) (words : List String) : Run Nat := do
  let shown := words.headD ""
  let failing (fault : TreeFault) : Run Nat := do
    match fault with
    | .missing | .notDirectory =>
      complainAsShell (shown ++ ": not found")
      exit 127
    | .tooManyLinks | .nameTooLong =>
      complainAsShell (shown ++ ": " ++ fault.message)
      exit 127
    | fault =>
      complainAsShell (shown ++ ": " ++ fault.message)
      exit 126
  sleep startTime
  modifyProcess fun p => { p with vars := inTableOrder p.vars }
  match ← become ex maxBecoming words with
  | .ok status => return status
  | .error fault => failing fault

/-- Calls a program. Without a process of its own it takes the place of the shell. -/
def callProgram (ex : Executor) (manner : Manner) (words : List String) : Run Nat := do
  if manner.isLast && !(← hasTraps) then exit (← takeOver ex words)
  else awaitEnd (← fork asCopy (takeOver ex words))

/-! ## Calls -/

/-- Runs something with variables of its own, which are as before after it. -/
def withLocals (act : Run Nat) : Run Nat := do
  modifyProcess fun p => { p with locals := [] :: p.locals }
  let found ← outcome act
  modifyProcess fun p =>
    let vars := (p.locals.headD []).foldl (fun (vars : Bindings Variable) (name, before?) =>
      match before? with
      | some before => vars.bind name before
      | none => ⟨vars.toList.filter (·.1 ≠ name)⟩) p.vars
    { p with locals := p.locals.tail, vars := vars }
  match found with
  | .ok status => return status
  | .error leave => throw leave

/-- Calls a function. -/
def callFunction (ex : Executor) (manner : Manner) (function : Command) (args : List String) :
    Run Nat := do
  match function with
  | .function line _ body =>
    let before ← process
    modifyProcess fun p => { p with params := args, loops := 0, firstLine := line }
    let restore : Run Unit := modifyProcess fun p =>
      { p with params := before.params, loops := before.loops, firstLine := before.firstLine }
    match ← outcome (ex ⟨manner.isTested, false⟩ body) with
    | .ok status | .error (.returned status) =>
      restore
      return status
    | .error (.exit status) => throw (.exit status)
    | .error leave =>
      restore
      throw leave
  | _ => return 0

/-- Runs a builtin. Messages name it meanwhile. -/
def callBuiltin (name : String) (act : Run Nat) : Run Nat := do
  let before := (← process).builtin
  modifyProcess fun p => { p with builtin := some name }
  let found ← outcome act
  modifyProcess fun p => { p with builtin := before }
  match found with
  | .ok status => return status
  | .error leave => throw leave

/-- Runs a script in a file as a part of this one. -/
def source (ex : Executor) (words : List String) : Run Nat := do
  match words with
  | [] => return 0
  | path :: params =>
    let found ← if path.toList.contains '/' then pure (.ok path) else do
      let directories := (← searchPath).splitOn ":"
      directories.foldlM (fun (found : Except TreeFault String) directory => do
        if found.toBool then return found
        match ← lookUp (directory ++ "/" ++ path) with
        | .ok (_, .file _) => return .ok (directory ++ "/" ++ path)
        | _ => return found) (.error .missing)
    match found with
    | .error _ => shellFault (path ++ ": not found")
    | .ok file =>
      match ← readPath file with
      | .error fault =>
        if fault = .isDirectory then return 0
        shellFault ("cannot open " ++ file ++ ": " ++ openingFault fault "No such file")
      | .ok bytes =>
        let before ← process
        if !params.isEmpty then modifyProcess fun p => { p with params := params }
        modifyProcess fun p => { p with builtin := some file, firstLine := 0 }
        let status ← outcome (runText ex plainly (String.ofList (Bytewise.ofBytes bytes)))
        if !params.isEmpty then modifyProcess fun p => { p with params := before.params }
        modifyProcess fun p => { p with firstLine := before.firstLine }
        match status with
        | .ok status | .error (.returned status) => return status
        | .error leave => throw leave

/-- What a command name stands for. -/
inductive Callee where
  | special (builtin : Builtin)
  | regular (builtin : Builtin)
  | function (body : Command)
  | program

/-- The builtins that run commands. -/
def commandBuiltins : List String := [".", "eval", "exec"]

/-- What a name stands for. -/
def calleeOf (name : String) (skipsFunctions : Bool) : Run Callee := do
  let functions := (← process).functions
  match if skipsFunctions then none else functions.lookup name with
  | some body => return .function body
  | none =>
    match specialBuiltins.lookup name, regularBuiltins.lookup name with
    | some builtin, _ => return .special builtin
    | none, some builtin => return .regular builtin
    | none, none =>
      if commandBuiltins.contains name then return .special fun _ => return 0
      return .program

/-- What a name stands for, in words or in short, and whether it stands for anything. -/
def describe (name : String) (inShort : Bool) : Run Nat := do
  let found (short long : String) : Run Nat := announce ((if inShort then short else name ++ long) ++ "\n")
  let p ← process
  if Reading.keywords.contains name then found name " is a shell keyword"
  else if let some text := p.aliases.lookup name then
    found ("alias " ++ name ++ "=" ++ shellQuote text) (" is an alias for " ++ text)
  else match ← calleeOf name false with
    | .special _ => found name " is a special shell builtin"
    | .regular _ => found name " is a shell builtin"
    | .function _ => found name " is a shell function"
    | .program =>
      if name = "command" || name = "type" then found name " is a shell builtin"
      else match ← findProgram (← searchPath) name with
        | .ok (path, _) => found path (" is " ++ path)
        | .error _ =>
          if !inShort then
            let _ ← announce (name ++ ": not found\n")
          return 127

/-- Asks what words stand for. -/
def describeAll (words : List String) (inShort : Bool) : Run Nat :=
  words.foldlM (fun status word => do
    let found ← describe word inShort
    return if found = 0 then status else found) 0

/-- The words of a simple command: options of `command` in front of them, if it is called, and the words
after those. -/
def afterCommand : List String → List Char × List String
  | "--" :: rest => ([], rest)
  | word :: rest =>
    match word.toList with
    | '-' :: c :: letters =>
      if (c :: letters).all fun c => c = 'p' || c = 'v' || c = 'V' then
        let (options, operands) := afterCommand rest
        (c :: letters ++ options, operands)
      else ([], word :: rest)
    | _ => ([], word :: rest)
  | [] => ([], [])

/-- Expands the words of a simple command. Words that declare variables are not cut if the command
does that. -/
def expandWords (ex : Executor) (words : List Word) : Run (List String) :=
  words.foldlM (fun fields word => do
    let name? := if fields.head? = some "command" then fields[1]? else fields.head?
    match if name?.any declaringNames.contains then Reading.assignment? word else none with
    | some (name, value) => return fields ++ [name ++ "=" ++ (← valueOf (capture ex) value)]
    | none => return fields ++ (← fieldsOf (capture ex) word)) []

/-- Assigns variables, for good or until a call is over. -/
def assign (ex : Executor) (isLocal exported : Bool) (assignments : List (String × Word)) :
    Run (List String) :=
  assignments.mapM fun (name, word) => do
    let value ← valueOf (capture ex) word
    if isLocal then
      modifyProcess fun p => match p.locals with
        | top :: others => { p with locals := ((name, p.vars.find? name) :: top) :: others }
        | [] => p
    setVariable name value (isLocal || exported)
    return name ++ "=" ++ value

/-- Shows a command before it runs, where complaints went before its redirections. -/
def trace (descriptors : List (Nat × OpenId)) (words : List String) : Run Unit := do
  if (← process).options.contains 'x' then
    let p ← process
    let lead := (← variableValue? "PS4").getD ""
    modifyProcess fun q => { q with
      descriptors := ((descriptors.lookup 2).toList.map (2, ·)) ++ q.descriptors.filter (·.1 ≠ 2) }
    complain (lead ++ " ".intercalate words)
    modifyProcess fun q => { q with descriptors := p.descriptors }

/-- Calls what the first of some words stands for. -/
def call (ex : Executor) (manner : Manner) (callee : Callee) (words : List String) : Run Nat := do
  let name := words.headD ""
  match callee with
  | .function body => callFunction ex manner body words.tail
  | .program => callProgram ex manner words
  | .regular builtin =>
    match ← outcome (callBuiltin name (builtin words.tail)) with
    | .ok status => return status
    | .error (.fault status) => return status
    | .error leave => throw leave
  | .special builtin =>
    callBuiltin name <| match name with
      | "eval" =>
        let words := if words[1]? = some "--" then words.drop 2 else words.tail
        runText ex ⟨manner.isTested, false⟩ (" ".intercalate words)
      | "." => source ex (if words[1]? = some "--" then words.drop 2 else words.tail)
      | "exec" =>
        match if words[1]? = some "--" then words.drop 2 else words.tail with
        | [] => return 0
        | words => do exit (← takeOver ex words)
      | _ => builtin words.tail

/-- Runs a command made of assignments, words and redirections. -/
def simple (ex : Executor) (manner : Manner) (line : Nat) (assignments : List (String × Word))
    (words : List Word) (redirects : List Redirect) : Run Nat := do
  setLine line
  modifyProcess fun p => { p with captured := 0 }
  let fields ← expandWords ex words
  let isCommand := fields.head? = some "command"
  let (options, called) := if isCommand then afterCommand fields.tail else ([], fields)
  let asks := options.contains 'v' || options.contains 'V'
  let callee ← calleeOf (called.headD "") isCommand
  let isSpecial := !isCommand && (called.isEmpty || match callee with
    | .special _ => true
    | _ => false)
  let isExec := called.head? = some "exec" && !isCommand
  let before := (← process).descriptors
  let openings ← redirects.mapM (expandRedirect ex)
  let act : Run Nat := do
    let status ← redirectAll openings
    if status ≠ 0 then
      if isSpecial && !called.isEmpty then throw (.fault status)
      return status
    let assigned ← assign ex (!isSpecial) (isExec && 1 < called.length) assignments
    if !(assigned.isEmpty && fields.isEmpty) then trace before (assigned ++ fields)
    if fields.isEmpty then return (← process).captured
    else if isCommand && (called.isEmpty || asks) then
      callBuiltin "command" do
        if let some word := called.head? then
          if !asks && word.startsWith "-" then
            complainAsShell ("Illegal option " ++ (word.take 2).toString)
            return 2
        describeAll (called.take 1) (!options.contains 'V')
    else if fields.head? = some "type" then callBuiltin "type" (describeAll fields.tail false)
    else
      let found ← outcome (call ex manner callee called)
      match found with
      | .ok status => return status
      | .error (.fault status) => if isCommand then return status else throw (.fault status)
      | .error leave => throw leave
  let found ← outcome (if isSpecial || assignments.isEmpty && !match callee with
    | .function _ => true
    | _ => false then act else withLocals act)
  if !isExec then restoreDescriptors openings before
  match found with
  | .ok status => return status
  | .error leave => throw leave

/-! ## Compound commands -/

/-- How long a round of a loop takes. -/
def roundTime : Nat := 20000

/-- Runs the body of a loop, and tells its status and whether the loop goes on. -/
def inLoop (act : Run Nat) : Run (Option Nat × Bool) := do
  match ← outcome act with
  | .ok status => return (some status, true)
  | .error (.leftLoop 1) => return (none, false)
  | .error (.leftLoop n) => throw (.leftLoop (n - 1))
  | .error (.nextRound 1) => return (none, true)
  | .error (.nextRound n) => throw (.nextRound (n - 1))
  | .error leave => throw leave

/-- Counts a loop as being under way while something runs. -/
def countingLoop (act : Run Nat) : Run Nat := do
  modifyProcess fun p => { p with loops := p.loops + 1 }
  let found ← outcome act
  modifyProcess fun p => { p with loops := p.loops - 1 }
  match found with
  | .ok status => return status
  | .error leave => throw leave

/-- Repeats the body of a loop at most `n` times as long as the test has the wanted outcome. -/
def repeatWhile (ex : Executor) (manner : Manner) (wanted : Bool) (test body : Command) :
    (n : Nat) → (status : Nat) → Run Nat
  | 0, status => return status
  | n + 1, status => do
    sleep roundTime
    let (found, goesOn) ← inLoop (ex tested test)
    if !goesOn then return 0
    match found with
    | none => repeatWhile ex manner wanted test body n status
    | some found =>
      if decide (found = 0) ≠ wanted then return status
      let (status, goesOn) ← inLoop (ex ⟨manner.isTested, false⟩ body)
      if goesOn then repeatWhile ex manner wanted test body n (status.getD 0)
      else return 0

/-- Runs the body of a loop for each of some values. -/
def repeatFor (ex : Executor) (manner : Manner) (name : String) (body : Command) :
    (status : Nat) → List String → Run Nat
  | status, [] => return status
  | _, value :: rest => do
    sleep roundTime
    setVariable name value false
    let (status, goesOn) ← inLoop (ex ⟨manner.isTested, false⟩ body)
    if goesOn then repeatFor ex manner name body (status.getD 0) rest
    else return 0

/-- The first case one of whose patterns matches a text. -/
def findCase (ex : Executor) (subject : String) : List (List Word × Command) → Run (Option Command)
  | [] => return none
  | (patterns, body) :: rest => do
    let isMatch ← patterns.anyM fun pattern => do
      return (← patternOf (capture ex) pattern).matchesText subject.toList
    if isMatch then return some body else findCase ex subject rest

/-- How often a loop goes round before the shell gives up. -/
def maxRounds : Nat := 10000000

/-- Runs a command in at most `n` steps. -/
def execute : (n : Nat) → Executor
  | 0, _, _ => do shellFault "too many commands in commands"
  | n + 1, manner, command => do
    let ex := execute n
    match command with
    | .nothing => return 0
    | .simple line assignments words redirects =>
      settle ex manner (← simple ex manner line assignments words redirects)
    | .redirected line body redirects =>
      setLine line
      let status ← withRedirects ex redirects (ex ⟨manner.isTested, false⟩ body)
      modifyProcess fun p => { p with status := status }
      return status
    | .subshell line body =>
      setLine line
      settle ex manner (← subshell ex manner body)
    | .background line body =>
      setLine line
      settle ex manner (← background ex body)
    | .sequence first second =>
      let _ ← ex ⟨manner.isTested, false⟩ first
      ex manner second
    | .both first second =>
      let status ← ex tested first
      if status = 0 then ex manner second else return status
    | .either first second =>
      let status ← ex tested first
      if status = 0 then return status else ex manner second
    | .negated body =>
      let status ← ex tested body
      let status := if status = 0 then 1 else 0
      modifyProcess fun p => { p with status := status }
      return status
    | .pipeline commands =>
      settle ex manner (← pipeline ex manner commands)
    | .branch test yes no =>
      let status ← ex tested test
      let status ← if status = 0 then ex manner yes else ex manner no
      modifyProcess fun p => { p with status := status }
      return status
    | .loop wanted test body =>
      let status ← countingLoop (repeatWhile ex manner wanted test body maxRounds 0)
      modifyProcess fun p => { p with status := status }
      return status
    | .each line name items body =>
      setLine line
      let values ← items.mapM (fieldsOf (capture ex))
      let status ← countingLoop (repeatFor ex manner name body 0 values.flatten)
      modifyProcess fun p => { p with status := status }
      return status
    | .choice line subject cases =>
      setLine line
      let text ← textOf (capture ex) subject
      let status ← match ← findCase ex text cases with
        | some body => ex manner body
        | none => pure 0
      modifyProcess fun p => { p with status := status }
      return status
    | .function line name body =>
      modifyProcess fun p => { p with
        functions := (name, .function line name body) :: p.functions.filter (·.1 ≠ name)
        status := 0 }
      return 0

/-- How deeply commands can be nested in each other. -/
def maxDepth : Nat := 20000

/-- How long it takes before a shell begins to work. -/
def shellTime : Nat := 100000

/-- Runs a command line in a shell. -/
def commandLine (text : String) : Run Nat := do
  sleep shellTime
  startShell (execute maxDepth) ["-c", Bytewise.ofText text]

end Run

end Rebuild.Shell
