import Rebuild.Shell.Condition
import Rebuild.Shell.Expansion
import Rebuild.Shell.Printf
import Rebuild.Shell.Signal
import Rebuild.Shell.Tool

/-!
# Builtins

What the shell itself does when it is called by name: it looks after its variables, its directory, its
options and its children, and does a few things that tools do as well. Errors in what a builtin is told
are thrown.
-/

namespace Rebuild.Shell

/-- Something that the shell does by itself, given the words after its name. -/
abbrev Builtin := List String → Run Nat

namespace Run

/-- Prints text, and complains as the shell if that is not possible. -/
def announce (text : String) : Run Nat := do
  match ← writeBytes 1 (Bytewise.toBytes text.toList) with
  | .ok _ => return 0
  | .error _ =>
    complainAsShell (((← process).builtin.getD "") ++ ": I/O error")
    return 1

/-- A text between quotation marks, from which the shell reads it back. -/
def shellQuote (text : String) : String :=
  let rec quoted : List Char → String
    | [] => ""
    | '\'' :: rest => "'\"'\"'" ++ quoted rest
    | c :: rest => String.singleton c ++ quoted rest
  "'" ++ quoted text.toList ++ "'"

/-- Takes options of one letter off the front of words. -/
def takeLetters (known : List Char) : List String → Run (List Char × List String)
  | [] => return ([], [])
  | "--" :: rest => return ([], rest)
  | word :: rest => do
    match word.toList with
    | '-' :: c :: letters =>
      if let some bad := (c :: letters).find? fun c => !known.contains c then
        shellFault ("Illegal option -" ++ String.singleton bad)
      let (more, operands) ← takeLetters known rest
      return (c :: letters ++ more, operands)
    | _ => return ([], word :: rest)

/-- The number that a word writes, which may not be negative. -/
def shellNumber (word : String) : Run Nat :=
  match number? word with
  | some n => if n < Nat.pow 2 31 then return n else shellFault ("Illegal number: " ++ word)
  | none => shellFault ("Illegal number: " ++ word)

/-! ## Conditions -/

/-- Whether something in the file tree has a property. -/
def hasProperty (tree : FileTree) (here : Place) (property : Char) (path : String) : Bool :=
  let found := (if property = 'h' || property = 'L' then tree.lookAt here path
    else tree.lookUp here path).toOption.map (·.2)
  match found with
  | none => false
  | some entry =>
    let mode := tree.modeOf entry
    match property with
    | 'f' => entry.isFile
    | 'd' => entry.isDirectory
    | 'h' | 'L' => entry.isLink
    | 'p' => match entry with
      | .queue _ => true
      | _ => false
    | 'c' => match entry with
      | .device _ => true
      | _ => false
    | 's' => entry.isDirectory || !(tree.contentsOf entry).isEmpty
    | 'x' => entry.isDirectory || mode &&& 0o111 ≠ 0
    | 'u' => mode &&& 0o4000 ≠ 0
    | 'g' => mode &&& 0o2000 ≠ 0
    | 'k' => mode &&& 0o1000 ≠ 0
    | 'b' | 'S' => false
    | _ => true

/-- What conditions find out about files. -/
def facts : Run Condition.Facts := do
  let s ← scene
  let p ← process
  let entry? (path : String) : Option (Place × Entry) :=
    (s.tree.lookUp p.here (Bytewise.toText path)).toOption
  return {
    holds property path :=
      match standardPath? path with
      | some n => property = 'e' && (p.descriptors.lookup n).isSome
      | none => hasProperty s.tree p.here property (Bytewise.toText path)
    isNewer a b := match entry? a, entry? b with
      | some a, some b => s.tree.mtimeOf b.2 < s.tree.mtimeOf a.2
      | _, _ => false
    isSame a b := match entry? a, entry? b with
      | some (_, .file x), some (_, .file y) => x = y
      | some a, some b => a.1 = b.1
      | _, _ => false }

def testBuiltin : Builtin := fun words => do
  match Condition.holds (← facts) words with
  | .ok holds => return if holds then 0 else 1
  | .error text => shellFault text

def bracketBuiltin : Builtin := fun words => do
  if words.getLast? ≠ some "]" then shellFault "missing ]"
  testBuiltin words.dropLast

/-! ## Printing and reading -/

def echoBuiltin : Builtin := fun words =>
  match words with
  | "-n" :: rest => announce (Printf.echoWords "" rest)
  | _ => announce (Printf.echoWords "\n" words)

def printfBuiltin : Builtin := fun words => do
  let (_, operands) ← takeLetters [] words
  match operands with
  | [] => shellFault "usage: printf format [arg ...]"
  | format :: rest =>
    let printed := Printf.words false format rest
    let status ← announce printed.text
    printed.complaints.forM complainAsShell
    if let some fault := printed.fault then shellFault fault
    return if printed.complaints.isEmpty then status else 1

/-- Reads a line in at most `n` steps, each character with whether it was escaped, and tells whether a
line end was found. -/
def readChars (isRaw : Bool) : (n : Nat) → List (Char × Bool) → Run (List (Char × Bool) × Bool)
  | 0, before => return (before, false)
  | n + 1, before => do
    let line ← match ← readLine 0 with
      | .ok bytes => pure (Bytewise.ofBytes bytes)
      | .error _ => pure []
    let hasEnd := line.getLast? = some '\n'
    let body := if hasEnd then line.dropLast else line
    let rec marked : List Char → List (Char × Bool)
      | [] => []
      | '\\' :: [] => if hasEnd then [] else [('\\', false)]
      | '\\' :: c :: rest => (c, true) :: marked rest
      | c :: rest => (c, false) :: marked rest
    if isRaw then return (before ++ body.map (·, false), hasEnd)
    let isJoined := hasEnd && (body.reverse.takeWhile (· = '\\')).length % 2 = 1
    let all := before ++ marked body
    if isJoined then readChars isRaw n all else return (all, hasEnd)

/-- The state of cutting a line into fields: the fields that are complete, the one being put together,
whether blanks after a field are passed over, how many fields may still be cut off, and how much of
the last one is kept if it ends here. -/
structure Cutting where
  complete : List String
  current : List Char
  afterBlank : Bool
  limit : Nat
  kept : Option Nat

namespace Cutting

/-- Adds a character to the last field, of which separators at the end may be dropped. -/
def addLast (c : Cutting) (char : Char) (isSeparator isBlank : Bool) : Cutting :=
  let text := char :: c.current
  if isBlank then { c with current := text, kept := c.kept <|> some c.current.length }
  else if isSeparator && c.afterBlank then { c with current := text, afterBlank := false }
  else { c with current := text, afterBlank := false, kept := none }

/-- Adds a character. -/
def add (separators : List Char) (c : Cutting) (char : Char × Bool) : Cutting :=
  let (char, isEscaped) := char
  let isSeparator := !isEscaped && separators.contains char
  let isBlank := isSeparator && (char = ' ' || char = '\t' || char = '\n')
  if c.limit = 0 then c.addLast char isSeparator isBlank
  else if c.afterBlank && isBlank then c
  else if c.afterBlank && isSeparator then { c with afterBlank := false }
  else if !isSeparator then { c with current := char :: c.current, afterBlank := false }
  else if isBlank && c.current.isEmpty then c
  else if c.limit = 1 then
    { c with
      limit := 0
      afterBlank := isBlank
      kept := some c.current.length
      current := char :: c.current }
  else
    { c with
      complete := String.ofList c.current.reverse :: c.complete
      current := []
      afterBlank := isBlank
      limit := c.limit - 1 }

/-- The fields. -/
def fields (c : Cutting) : List String :=
  let text := c.current.reverse
  let last := String.ofList (match c.kept with
    | some n => text.take n
    | none => text)
  (last :: c.complete).reverse

end Cutting

def readBuiltin : Builtin := fun words => do
  let (options, names) ← match words with
    | "-p" :: prompt :: rest =>
      write 2 (Bytewise.toBytes prompt.toList)
      takeLetters ['r'] rest
    | _ => takeLetters ['r'] words
  if names.isEmpty then shellFault "arg count"
  let (chars, hasEnd) ← readChars (options.contains 'r') 10000 []
  let chars := chars.filter (·.1 ≠ '\x00')
  let cutting := chars.foldl (Cutting.add (← separators).toList)
    ⟨[], [], false, names.length, none⟩
  let fields := cutting.fields
  for (name, i) in names.zipIdx do
    if !isName name then shellFault (name ++ ": bad variable name")
    setVariable name ((fields[i]?).getD "") false
  return if hasEnd then 0 else 1

/-! ## Variables -/

/-- The name and the value of a word that declares a variable. -/
def declared (word : String) : Run (String × Option String) := do
  let name := String.ofList (word.toList.takeWhile (· ≠ '='))
  if !isName name then shellFault (name ++ ": bad variable name")
  return (name, if name.length < word.length then some (word.drop (name.length + 1)).toString
    else none)

/-- Lists variables, each after a word. -/
def listVariables (word : String) (wanted : Variable → Bool) : Run Nat := do
  let chosen := (← process).vars.toList.filter fun (_, v) => wanted v
  let sorted := chosen.mergeSort fun a b => a.1 ≤ b.1
  announce (String.join (sorted.map fun (name, v) =>
    word ++ name ++ (match v.value with
      | some value => "=" ++ shellQuote value
      | none => "") ++ "\n"))

/-- Changes how a variable is marked. -/
def markVariable (name : String) (mark : Variable → Variable) : Run Unit :=
  modifyProcess fun p =>
    { p with vars := p.vars.bind name (mark ((p.vars.find? name).getD ⟨none, false, false⟩)) }

/-- Declares variables, marking them. -/
def declaring (word : String) (mark : Variable → Variable) (isMarked : Variable → Bool) : Builtin :=
  fun words => do
    let (options, operands) ← takeLetters ['p'] words
    if options.contains 'p' || operands.isEmpty then listVariables (word ++ " ") isMarked
    else
      operands.forM fun operand => do
        let (name, value?) ← declared operand
        if let some value := value? then setVariable name value false
        markVariable name mark
      return 0

def exportBuiltin : Builtin :=
  declaring "export" (fun v => { v with isExported := true }) (·.isExported)

def readonlyBuiltin : Builtin :=
  declaring "readonly" (fun v => { v with isFixed := true }) (·.isFixed)

def localBuiltin : Builtin := fun words => do
  if (← process).locals.isEmpty then shellFault "not in a function"
  words.forM fun word => do
    if word ≠ "-" then
      let (name, value?) ← declared word
      modifyProcess fun p =>
        match p.locals with
        | top :: others =>
          if top.any (·.1 = name) then p
          else { p with locals := ((name, p.vars.find? name) :: top) :: others }
        | [] => p
      if let some value := value? then setVariable name value false
  return 0

/-- Forgets a variable. -/
def forget (name : String) : Run Unit := do
  if ((← process).vars.find? name).any (·.isFixed) then shellFault (name ++ ": is read only")
  modifyProcess fun p => { p with vars := ⟨p.vars.toList.filter (·.1 ≠ name)⟩ }

def unsetBuiltin : Builtin := fun words => do
  let (options, names) ← takeLetters ['v', 'f'] words
  names.forM fun name => do
    if options.contains 'f' then
      modifyProcess fun p => { p with functions := p.functions.filter (·.1 ≠ name) }
    else
      if !isName name then shellFault (name ++ ": bad variable name")
      forget name
  return 0

/-! ## Options and parameters -/

/-- The options of the shell by name. -/
def optionNames : List (String × Char) :=
  [("errexit", 'e'), ("noglob", 'f'), ("ignoreeof", 'I'), ("interactive", 'i'), ("monitor", 'm'),
    ("noexec", 'n'), ("stdin", 's'), ("xtrace", 'x'), ("verbose", 'v'), ("vi", 'V'), ("emacs", 'E'),
    ("noclobber", 'C'), ("allexport", 'a'), ("notify", 'b'), ("nounset", 'u'), ("nolog", 'L'),
    ("debug", 'D')]

/-- Turns an option of the shell on or off. -/
def setOption (letter : Char) (isOn : Bool) : Run Unit := do
  if !optionNames.any (·.2 = letter) then
    shellFault ("Illegal option -" ++ String.singleton letter)
  modifyProcess fun p =>
    let others := p.options.filter (· ≠ letter)
    { p with options := if isOn then letter :: others else others }

/-- Turns an option on or off that is given by name. -/
def setOptionNamed (name : String) (isOn : Bool) : Run Unit := do
  match optionNames.lookup name with
  | some letter => setOption letter isOn
  | none => shellFault ("Illegal option -o " ++ name)

/-- Lists the options of the shell. -/
def listOptions (asCommands : Bool) : Run Unit := do
  let options := (← process).options
  let line (entry : String × Char) : String :=
    let isOn := options.contains entry.2
    if asCommands then "set " ++ (if isOn then "-o " else "+o ") ++ entry.1 ++ "\n"
    else entry.1 ++ String.ofList (List.replicate (16 - entry.1.length) ' ') ++
      (if isOn then "on" else "off") ++ "\n"
  say ((if asCommands then "" else "Current option settings\n") ++
    String.join (optionNames.map line))

/-- Sets options as words tell, and returns the parameters that follow them, if any do. -/
def setOptions : List String → Run (Option (List String))
  | [] => return none
  | "--" :: rest => return some rest
  | "-" :: rest => do
    setOption 'x' false
    setOption 'v' false
    return if rest.isEmpty then none else some rest
  | word :: rest => do
    match word.toList with
    | sign :: letters =>
      if sign ≠ '-' && sign ≠ '+' then return some (word :: rest)
      let isOn := sign = '-'
      letters.forM fun c => if c = 'o' then pure () else setOption c isOn
      if letters.contains 'o' then
        match rest with
        | [] => listOptions !isOn
        | name :: _ => setOptionNamed name isOn
        setOptions rest.tail
      else setOptions rest
    | [] => return some (word :: rest)
termination_by words => words.length
decreasing_by all_goals (simp only [List.length_cons, List.length_tail]; omega)

def setBuiltin : Builtin := fun words => do
  if words.isEmpty then listVariables "" (·.value.isSome)
  else
    if let some params ← setOptions words then
      modifyProcess fun p => { p with params := params }
    return 0

def shiftBuiltin : Builtin := fun words => do
  let count ← match words with
    | [] => pure 1
    | word :: _ => shellNumber word
  if (← process).params.length < count then shellFault "can't shift that many"
  modifyProcess fun p => { p with params := p.params.drop count }
  return 0

/-- What `getopts` found: the option, its argument, the index of the next word, how far it has come in
the word before that, and whether the options are over. -/
structure FoundOption where
  option : Char
  argument : Option String
  complaint : Option String
  next : Nat
  offset : Nat
  isOver : Bool

/-- Finds the next option among words. -/
def nextOption (letters : List Char) (words : List String) (index offset : Nat) : FoundOption :=
  let isSilent := letters.head? = some ':'
  let inside := ((words[index - 2]?).getD "").toList.drop offset
  let goesOn := 1 < index && 0 < offset && !inside.isEmpty
  let word := ((words[index - 1]?).getD "").toList
  let done (next : Nat) : FoundOption := ⟨'?', none, none, next, 0, true⟩
  if !goesOn && word = ['-', '-'] then done (index + 1)
  else if !goesOn && (word.head? ≠ some '-' || word.length < 2) then done index
  else
    let (text, next, offset) := if goesOn then (inside, index, offset)
      else (word.drop 1, index + 1, 1)
    match text with
    | [] => done next
    | c :: rest =>
      let offset := if rest.isEmpty then 0 else offset + 1
      let after := (letters.dropWhile (· ≠ c)).drop 1
      if c = ':' || !letters.contains c then
        if isSilent then ⟨'?', some (String.singleton c), none, next, offset, false⟩
        else ⟨'?', none, some ("Illegal option -" ++ String.singleton c), next, offset, false⟩
      else if after.head? ≠ some ':' then ⟨c, some "", none, next, offset, false⟩
      else if !rest.isEmpty then ⟨c, some (String.ofList rest), none, next, 0, false⟩
      else match words[next - 1]? with
        | some argument => ⟨c, some argument, none, next + 1, 0, false⟩
        | none =>
          if isSilent then ⟨':', some (String.singleton c), none, next, 0, false⟩
          else ⟨'?', none, some ("No arg for -" ++ String.singleton c ++ " option"), next, 0, false⟩

def getoptsBuiltin : Builtin := fun words => do
  match words with
  | letters :: name :: given =>
    let p ← process
    let index := max 1 (((p.vars.find? "OPTIND").bind (·.value)).bind (·.toNat?) |>.getD 1)
    let found := nextOption letters.toList (if given.isEmpty then p.params else given) index
      p.optionOffset
    if let some text := found.complaint then complain text
    match found.argument with
    | some argument => setVariable "OPTARG" argument false
    | none => if !found.isOver then forget "OPTARG"
    setVariable "OPTIND" (toString found.next) false
    modifyProcess fun p => { p with optionOffset := found.offset }
    setVariable name (String.singleton found.option) false
    return if found.isOver then 1 else 0
  | _ => shellFault "Usage: getopts optstring var [arg...]"

/-! ## The directory and the permissions -/

/-- A path without dots and double separators, seen from a directory. -/
def plainPath (directory path : String) : String :=
  let text := if path.startsWith "/" then path else directory ++ "/" ++ path
  let names := (text.splitOn "/").foldl (fun (names : List String) name =>
    if name = "" || name = "." then names
    else if name = ".." then names.tail
    else name :: names) []
  "/" ++ "/".intercalate names.reverse

/-- The path by which the shell knows its directory. -/
def currentPath : Run String := do
  let real := Bytewise.ofText ("/" ++ "/".intercalate (← process).here)
  match ← variableValue? "PWD" with
  | some path =>
    match ← lookUp path with
    | .ok (place, _) => return if place = (← process).here then path else real
    | .error _ => return real
  | none => return real

def cdBuiltin : Builtin := fun words => do
  let (options, operands) ← takeLetters ['L', 'P'] words
  let before ← currentPath
  let target ← match operands with
    | "-" :: _ => pure ((← variableValue? "OLDPWD").getD before)
    | path :: _ => pure path
    | [] => pure ((← variableValue? "HOME").getD "")
  let isPhysical := options.getLast? = some 'P'
  let path := if isPhysical then target else plainPath before target
  let found ← lookUp (if target = "" then "." else path)
  match found with
  | .ok (place, .directory _ _) =>
    modifyProcess fun p => { p with here := place }
    let shown := if isPhysical then Bytewise.ofText ("/" ++ "/".intercalate place)
      else plainPath before target
    setVariable "OLDPWD" before true
    setVariable "PWD" shown true
    if operands.head? = some "-" then announce (shown ++ "\n") else return 0
  | _ => shellFault ("can't cd to " ++ target)

def pwdBuiltin : Builtin := fun words => do
  let (options, _) ← takeLetters ['L', 'P'] words
  if options.getLast? = some 'P' then
    announce (Bytewise.ofText ("/" ++ "/".intercalate (← process).here) ++ "\n")
  else announce ((← currentPath) ++ "\n")

/-- What a clause of a symbolic mode makes of permissions. -/
def applyClause (mask : Nat) (isDirectory : Bool) (mode : Nat) (clause : List Char) : Option Nat :=
  let who := clause.takeWhile fun c => "ugoa".toList.contains c
  let bitsOf (c : Char) : Nat := match c with
    | 'u' => 0o4700
    | 'g' => 0o2070
    | 'o' => 0o1007
    | _ => 0o7777
  let scope := if who.isEmpty then 0o7777 - (mask &&& 0o777)
    else who.foldl (fun bits c => bits ||| bitsOf c) 0
  let rec actions (n mode : Nat) (text : List Char) : Option Nat :=
    match n, text with
    | 0, _ => none
    | _, [] => some mode
    | n + 1, op :: rest =>
      let letters := rest.takeWhile fun c => "rwxXstugo".toList.contains c
      let spread (bits : Nat) : Nat := bits * 0o111
      let wanted := letters.foldl (fun bits c => bits ||| match c with
        | 'r' => 0o444
        | 'w' => 0o222
        | 'x' => 0o111
        | 'X' => if isDirectory || mode &&& 0o111 ≠ 0 then 0o111 else 0
        | 's' => 0o6000
        | 't' => 0o1000
        | 'u' => spread (mode >>> 6 &&& 7)
        | 'g' => spread (mode >>> 3 &&& 7)
        | _ => spread (mode &&& 7)) 0
      let wanted := wanted &&& scope
      let rest := rest.drop letters.length
      match op with
      | '+' => actions n (mode ||| wanted) rest
      | '-' => actions n (mode &&& (0o7777 ^^^ wanted)) rest
      | '=' =>
        let cleared := if who.isEmpty then 0o777 else scope &&& 0o777
        actions n ((mode &&& (0o7777 ^^^ cleared)) ||| wanted) rest
      | _ => none
  let text := clause.drop who.length
  if text.isEmpty then none else actions text.length.succ mode text

/-- Permissions after a change that is given in digits or in letters. -/
def changedMode? (mask : Nat) (isDirectory : Bool) (mode : Nat) (text : String) : Option Nat :=
  if text ≠ "" && text.all (fun c => '0' ≤ c && c ≤ '7') then
    some (Arithmetic.valueOf 8 text.toList % 0o10000)
  else (text.splitOn ",").foldlM (fun mode clause =>
    applyClause mask isDirectory mode clause.toList) mode

/-- Permissions in letters. -/
def modeLetters (bits : Nat) : String :=
  (if bits &&& 4 ≠ 0 then "r" else "") ++ (if bits &&& 2 ≠ 0 then "w" else "") ++
    (if bits &&& 1 ≠ 0 then "x" else "")

def umaskBuiltin : Builtin := fun words => do
  let (options, operands) ← takeLetters ['S'] words
  let mask := (← process).mask
  match operands with
  | [] =>
    if options.contains 'S' then
      let free := 0o777 - mask
      announce ("u=" ++ modeLetters (free >>> 6) ++ ",g=" ++ modeLetters (free >>> 3 &&& 7) ++ ",o=" ++
        modeLetters (free &&& 7) ++ "\n")
    else announce ("0" ++ Floating.digits 3 (Arithmetic.valueOf 10 (Nat.toDigits 8 mask)) ++ "\n")
  | word :: _ =>
    if word.toList.head?.any Char.isDigit then
      if word.all (fun c => '0' ≤ c && c ≤ '7') then
        modifyProcess fun p => { p with mask := Arithmetic.valueOf 8 word.toList % 0o1000 }
      else shellFault ("Illegal number: " ++ word)
    else
      match changedMode? 0 false (0o777 - mask) word with
      | some free => modifyProcess fun p => { p with mask := 0o777 - (free &&& 0o777) }
      | none => shellFault ("Illegal mode: " ++ word)
    return 0

/-! ## Processes -/

def trapBuiltin : Builtin := fun words => do
  let (_, operands) ← takeLetters [] words
  match operands with
  | [] =>
    let traps := (← process).traps.mergeSort fun a b => a.1 ≤ b.1
    announce (String.join (traps.map fun (number, text) =>
      "trap -- " ++ shellQuote text ++ " " ++ Signal.name number ++ "\n"))
  | first :: others =>
    let isReset := others.isEmpty || (Signal.ofText? first).isSome
    let signals := if isReset && first ≠ "-" then operands else others
    let action? := if isReset || first = "-" then none else some first
    for word in signals do
      match Signal.ofText? word with
      | none =>
        complain ("trap: " ++ word ++ ": bad trap")
        return 1
      | some number =>
        modifyProcess fun p =>
          { p with traps := (action?.toList.map (number, ·)) ++ p.traps.filter (·.1 ≠ number) }
    return 0

/-- The child that a word names. -/
def child? (word : String) : Run (Option Pid) := do
  let p ← process
  if word = "%%" || word = "%+" || word = "%" then return p.children.getLast?
  match word.toList with
  | '%' :: digits =>
    match number? (String.ofList digits) with
    | some n => return if n = 0 then none else p.children[n - 1]?
    | none => return none
  | _ => return none

/-- Waits for a child to end, or for a signal that has a trap. -/
def waitForChild (child : Pid) : Run Nat := do
  let self ← pid
  let isDone (s : Scene) : Bool :=
    !s.isAlive child || ((s.processes.lookup self).any fun p => !p.pending.isEmpty)
  if !isDone (← scene) then await none isDone
  match (← process).pending with
  | number :: _ => return 128 + number
  | [] => return (((← scene).ended.lookup child).map Ending.status).getD 127

def waitBuiltin : Builtin := fun words => do
  let (_, operands) ← takeLetters [] words
  if operands.isEmpty then
    for child in (← process).children do
      let status ← waitForChild child
      if !(← process).pending.isEmpty then return status
    modifyProcess fun p => { p with children := [] }
    return 0
  else
    operands.foldlM (fun _ word => do
      if word.startsWith "%" then
        match ← child? word with
        | some child => waitForChild child
        | none => shellFault ("No such job: " ++ word)
      else
        let child ← shellNumber word
        if (← process).children.contains child then
          let status ← waitForChild child
          if (← process).pending.isEmpty then
            modifyProcess fun p => { p with children := p.children.erase child }
          return status
        else return 127) 0

/-- How `kill` is used. -/
def killUsage : String :=
  "Usage: kill [-s sigspec | -signum | -sigspec] [pid | job]... or\nkill -l [exitstatus]"

/-- Sends a signal to processes that words name. -/
def killAll (number : Nat) (words : List String) : Run Nat :=
  words.foldlM (fun status word => do
    let target? ← if word.startsWith "%" then child? word
      else if (number? word).isSome then pure (number? word)
      else if word.startsWith "-" && (number? (word.drop 1).toString).isSome then pure none
      else shellFault ("Illegal number: " ++ word)
    let isSent ← match target? with
      | some target => sendSignal target number
      | none => pure false
    if isSent then return status
    complainAsShell "No such process\n"
    return 1) 0

def killBuiltin : Builtin := fun words => do
  match words with
  | [] => shellFault killUsage
  | "-l" :: [] => announce (Lines.join (Signal.names.drop 1))
  | "-l" :: word :: _ =>
    let n ← shellNumber word
    let n := if 128 < n then n - 128 else n
    if Signal.greatest < n then shellFault ("Illegal number: " ++ word)
    announce (Signal.name n ++ "\n")
  | "-s" :: name :: rest =>
    match Signal.ofText? name with
    | some number => killAll number rest
    | none => shellFault ("invalid signal number or name: " ++ name)
  | "--" :: rest => killAll 15 rest
  | word :: rest =>
    if word.startsWith "-" then
      match Signal.ofText? (word.drop 1).toString with
      | some number =>
        let rest := if rest.head? = some "--" then rest.tail else rest
        if rest.isEmpty then shellFault killUsage
        killAll number rest
      | none => shellFault ("Illegal option -" ++ ((word.drop 1).take 1).toString)
    else killAll 15 words

/-! ## Leaving -/

/-- The status that a word gives, the last status if there is none. -/
def givenStatus (words : List String) : Run Nat := do
  match words with
  | [] => return (← process).status
  | word :: _ => shellNumber word

def exitBuiltin : Builtin := fun words => do
  exit (← givenStatus words)

def returnBuiltin : Builtin := fun words => do
  throw (.returned (← givenStatus words))

/-- Leaves loops, as many as a word tells. -/
def leaving (leave : Nat → Leave) : Builtin := fun words => do
  let count ← match words with
    | [] => pure 1
    | word :: _ => shellNumber word
  if count = 0 then shellFault ("Illegal number: " ++ words.headD "")
  let loops := (← process).loops
  if loops = 0 then return 0
  throw (leave (min count loops))

/-! ## Aliases -/

def aliasBuiltin : Builtin := fun words => do
  let aliases := (← process).aliases
  if words.isEmpty then
    announce (String.join (aliases.map fun (name, text) => name ++ "=" ++ shellQuote text ++ "\n"))
  else
    words.foldlM (fun status word => do
      let name := String.ofList (word.toList.takeWhile (· ≠ '='))
      if name.length < word.length then
        let text := (word.drop (name.length + 1)).toString
        modifyProcess fun p =>
          { p with aliases := (name, text) :: p.aliases.filter (·.1 ≠ name) }
        return status
      else match aliases.lookup name with
        | some text =>
          let _ ← announce (name ++ "=" ++ shellQuote text ++ "\n")
          return status
        | none =>
          complain ("alias: " ++ name ++ " not found")
          return 1) 0

def unaliasBuiltin : Builtin := fun words => do
  let (options, names) ← takeLetters ['a'] words
  if options.contains 'a' then modifyProcess fun p => { p with aliases := [] }
  names.foldlM (fun status name => do
    if (← process).aliases.any (·.1 = name) then
      modifyProcess fun p => { p with aliases := p.aliases.filter (·.1 ≠ name) }
      return status
    complain ("unalias: " ++ name ++ " not found")
    return 1) 0

/-! ## The table -/

/-- Builtins whose errors end the shell, and after which assignments in front of them stay. -/
def specialBuiltins : List (String × Builtin) :=
  [(":", fun _ => return 0), ("break", leaving .leftLoop), ("continue", leaving .nextRound),
    ("exit", exitBuiltin), ("export", exportBuiltin), ("local", localBuiltin),
    ("readonly", readonlyBuiltin), ("return", returnBuiltin), ("set", setBuiltin),
    ("shift", shiftBuiltin), ("times", fun _ => do
      announce "0m0.000000s 0m0.000000s\n0m0.000000s 0m0.000000s\n"),
    ("trap", trapBuiltin), ("unset", unsetBuiltin)]

/-- Other builtins. -/
def regularBuiltins : List (String × Builtin) :=
  [("alias", aliasBuiltin), ("unalias", unaliasBuiltin), ("bg", fun _ => return 0),
    ("cd", cdBuiltin), ("chdir", cdBuiltin), ("echo", echoBuiltin), ("false", fun _ => return 1),
    ("fg", fun _ => return 0), ("getopts", getoptsBuiltin), ("hash", fun _ => return 0),
    ("jobs", fun _ => return 0), ("kill", killBuiltin), ("printf", printfBuiltin),
    ("pwd", pwdBuiltin), ("read", readBuiltin), ("test", testBuiltin), ("[", bracketBuiltin),
    ("true", fun _ => return 0), ("ulimit", fun _ => do announce "unlimited\n"),
    ("umask", umaskBuiltin), ("wait", waitBuiltin)]

/-- The words that declare variables, in whose arguments assignments are not cut into fields. -/
def declaringNames : List String := ["alias", "export", "local", "readonly"]

end Run

end Rebuild.Shell
