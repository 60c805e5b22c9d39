import Rebuild.Text.Numeral

/-!
# The command line

A command line is options, then a request with options and operands of its own. The directory, the
manifest file, the number of jobs and verbosity can be given before and after the name of the
request, and what is given after it counts. On each side an option may be given once.

The value of an option stands behind it, or is the next word unless that looks like an option. A
value that is a word of its own is looked at only when the next option comes, or at the end; so of
two faults the one found first need not be the one written first.
-/

namespace Rebuild

/-- What is asked for. -/
inductive Request where
  | build (targets : List String)
  | targets (all : Bool)
  | clean (targets : List String)
  | commands (targets : List String)
  | version
deriving DecidableEq, Repr

/-- A command line that was understood. -/
structure Invocation where
  dir : Option String
  file : Option String
  jobs : Option Nat
  verbose : Bool
  request : Option Request
deriving DecidableEq, Repr

/-- Why a command line cannot be carried out: something is wrong with it, or it asks for help or for
the version of the program. -/
inductive UsageFault where
  | unknownArgument
  | unknownRequest
  | missingValue
  | notANumber
  | givenTwice
  | unexpectedValue
  | helpWanted
  | versionWanted
deriving DecidableEq, Repr

/-- The status with which the program ends. -/
def UsageFault.exitCode : UsageFault → Nat
  | .helpWanted | .versionWanted => 0
  | _ => 2

namespace CommandLine

/-- The part of a command line that words belong to: before the name of a request, or after it. -/
inductive Part where
  | front
  | build
  | targets
  | clean
  | commands
  | version
deriving DecidableEq, Repr

/-- The part that the name of a request begins. -/
def Part.ofName? (name : String) : Option Part :=
  if name = "build" then some .build
  else if name = "targets" then some .targets
  else if name = "clean" then some .clean
  else if name = "commands" then some .commands
  else if name = "version" then some .version
  else none

/-- Whether a part has operands. -/
def Part.takesOperands : Part → Bool
  | .build | .clean | .commands => true
  | _ => false

/-- The options that have a value. -/
inductive ValueOption where
  | dir
  | file
  | jobs
deriving DecidableEq, Repr

/-- The options that have none. -/
inductive Flag where
  | verbose
  | all
  | help
  | version
deriving DecidableEq, Repr

/-- The value option that a letter stands for. -/
def ValueOption.ofLetter? (c : Char) : Option ValueOption :=
  if c = 'C' then some .dir
  else if c = 'f' then some .file
  else if c = 'j' then some .jobs
  else none

/-- The value option of a name. -/
def ValueOption.ofName? (name : String) : Option ValueOption :=
  if name = "dir" then some .dir
  else if name = "file" then some .file
  else if name = "jobs" then some .jobs
  else none

/-- The flag that a letter stands for in a part. -/
def Flag.ofLetter? (part : Part) (c : Char) : Option Flag :=
  if c = 'v' then some .verbose
  else if c = 'h' then some .help
  else if c = 'V' ∧ part = .front then some .version
  else none

/-- The flag of a name in a part. -/
def Flag.ofName? (part : Part) (name : String) : Option Flag :=
  if name = "verbose" then some .verbose
  else if name = "help" then some .help
  else if name = "version" ∧ part = .front then some .version
  else if name = "all" ∧ part = .targets then some .all
  else none

/-- What is given in a part so far. An option whose value is a word of its own is pending, at first
without the value. -/
structure Given where
  dir : Option String
  file : Option String
  jobs : Option Nat
  verbose : Bool
  all : Bool
  operands : List String
  pending : Option (ValueOption × Option String)
deriving DecidableEq, Repr

namespace Given

/-- A part in which nothing is given. -/
def blank : Given := ⟨none, none, none, false, false, [], none⟩

/-- Takes in an option with its value. The directory cannot be empty, and jobs are a number. -/
def accept (r : Given) (option : ValueOption) (value : String) : Except UsageFault Given :=
  match option with
  | .dir =>
    if r.dir.isSome then .error .givenTwice
    else if value = "" then .error .missingValue
    else .ok { r with dir := some value }
  | .file => if r.file.isSome then .error .givenTwice else .ok { r with file := some value }
  | .jobs =>
    if r.jobs.isSome then .error .givenTwice
    else match Numeral.word? 10 value.toList with
      | some jobs => .ok { r with jobs := some jobs.toNat }
      | none => .error .notANumber

/-- Takes in the pending option. -/
def settle (r : Given) : Except UsageFault Given :=
  match r.pending with
  | none => .ok r
  | some (_, none) => .error .missingValue
  | some (option, some value) => { r with pending := none }.accept option value

/-- Takes in a flag. -/
def raise (r : Given) (flag : Flag) : Except UsageFault Given := do
  let r ← r.settle
  match flag with
  | .verbose => if r.verbose then throw .givenTwice else return { r with verbose := true }
  | .all => if r.all then throw .givenTwice else return { r with all := true }
  | .help => throw .helpWanted
  | .version => throw .versionWanted

/-- Takes in an option, with its value if that is attached. -/
def begin (r : Given) (option : ValueOption) (attached : Option String) :
    Except UsageFault Given := do
  let r ← r.settle
  match attached with
  | some value => r.accept option value
  | none => return { r with pending := some (option, none) }

/-- Takes in letters behind a dash. An option that has a value takes all letters after it as the
value, without the equals sign that may stand between. -/
def letters (part : Part) (r : Given) : List Char → Except UsageFault Given
  | [] => .ok r
  | c :: rest =>
    match ValueOption.ofLetter? c with
    | some option =>
      match rest with
      | [] => r.begin option none
      | '=' :: value => r.begin option (some (String.ofList value))
      | value => r.begin option (some (String.ofList value))
    | none =>
      match Flag.ofLetter? part c with
      | some flag => do
        let r ← r.raise flag
        letters part r rest
      | none => .error .unknownArgument

/-- Takes in a name behind two dashes, and what is attached to it by an equals sign. -/
def named (part : Part) (r : Given) (text : List Char) : Except UsageFault Given :=
  let name := String.ofList (text.takeWhile (· ≠ '='))
  let attached := match text.dropWhile (· ≠ '=') with
    | _ :: value => some (String.ofList value)
    | [] => none
  match ValueOption.ofName? name, Flag.ofName? part name with
  | some option, _ => r.begin option attached
  | none, some flag => if attached.isSome then .error .unexpectedValue else r.raise flag
  | none, none => .error .unknownArgument

/-- Whether the next word is the value of the pending option. -/
def awaitsValue (r : Given) : Bool :=
  match r.pending with
  | some (_, none) => true
  | _ => false

/-- Takes in a word that is no option, given whether it stands behind `--`. -/
def operand (part : Part) (r : Given) (behindDashes : Bool) (word : String) :
    Except UsageFault Given :=
  if part.takesOperands then do
    let r ← r.settle
    return { r with operands := r.operands ++ [word] }
  else if part = .front then
    if behindDashes ∧ ((Part.ofName? word).isSome ∨ word = "help") then .error .unknownArgument
    else .error .unknownRequest
  else .error .unknownArgument

/-- Takes in a word that does not stand behind `--`. -/
def word (part : Part) (r : Given) (word : String) : Except UsageFault Given :=
  match word.toList with
  | '-' :: '-' :: text => r.named part text
  | '-' :: c :: rest => r.letters part (c :: rest)
  | _ =>
    match r.pending with
    | some (option, none) => .ok { r with pending := some (option, some word) }
    | _ => r.operand part false word

end Given

/-- What follows the name `help`: help is shown for a request that exists. -/
def help : List String → UsageFault
  | [] => .helpWanted
  | [name] =>
    if (Part.ofName? name).isSome ∨ name = "help" then .helpWanted else .unknownRequest
  | _ => .unknownRequest

/-- Reads the words after the name of a request. -/
def readBack (part : Part) (r : Given) : List String → Except UsageFault Given
  | [] => r.settle
  | "--" :: rest => do
    let r ← rest.foldlM (fun r word => r.operand part true word) r
    r.settle
  | word :: rest => do
    let r ← r.word part word
    readBack part r rest

/-- Reads the words before the name of a request, the part that the name begins, and the words after
it. What is still pending before the name is looked at after all else. -/
def readFront (r : Given) : List String → Except UsageFault (Given × Option (Part × Given))
  | [] => do
    return (← r.settle, none)
  | "--" :: rest => do
    let r ← rest.foldlM (fun r word => r.operand .front true word) r
    return (← r.settle, none)
  | word :: rest =>
    match Part.ofName? word, r.awaitsValue with
    | some part, false => do
      let back ← readBack part .blank rest
      return (← r.settle, some (part, back))
    | _, awaits => do
      if word = "help" && !awaits then throw (help rest)
      readFront (← r.word .front word) rest

/-- The request of a part. -/
def requestOf (part : Part) (r : Given) : Option Request :=
  match part with
  | .front => none
  | .build => some (.build r.operands)
  | .targets => some (.targets r.all)
  | .clean => some (.clean r.operands)
  | .commands => some (.commands r.operands)
  | .version => some .version

/-- Reads a command line, without the name of the program. -/
def parse (words : List String) : Except UsageFault Invocation := do
  let (front, found) ← readFront .blank words
  match found with
  | none => return ⟨front.dir, front.file, front.jobs, front.verbose, none⟩
  | some (part, back) =>
    return ⟨back.dir <|> front.dir, back.file <|> front.file, back.jobs <|> front.jobs,
      back.verbose || front.verbose, requestOf part back⟩

end CommandLine

end Rebuild
