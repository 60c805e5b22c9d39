import Rebuild.Shell.Awk.Machine

/-!
# Running record programs

Expressions have values, and statements lead on or out of something. Each step inside another one, and each
round of a loop, takes one from a number that is large enough.
-/

namespace Rebuild.Shell.Awk

/-- A program with the numbers of its arrays, and how its processes become other programs. -/
structure Setup where
  program : Program
  arrayIds : Std.HashMap String Nat
  become : Becoming

/-- Where a value can be put. -/
inductive Slot where
  | variable (name : String)
  | element (array : Nat) (index : Elements.Index)
  | field (n : Nat)

/-- Where a statement leads: on, out of a loop, to the next round of it, or out of a function. -/
inductive Flow where
  | on
  | leave
  | round
  | returned (v : Value)

/-- The rest of a division whose quotient is a whole number, with the sign of the first number. -/
def remainder (x y : Float) : Float :=
  match Floating.parts x, Floating.parts y with
  | .finite isNegative m e, .finite _ k f =>
    if k = 0 then (0.0 / 0.0)
    else
      let least := min e f
      let rest := (m * Nat.pow 2 (e - least).toNat) % (k * Nat.pow 2 (f - least).toNat)
      let size := (Float.ofNat rest).scaleB least
      if isNegative then -size else size
  | .finite _ _ _, .infinite _ => x
  | _, _ => x - x

namespace Arith

/-- Applies an operator. -/
def apply (op : Arith) (x y : Float) : Float :=
  match op with
  | add => x + y
  | subtract => x - y
  | multiply => x * y
  | divide => x / y
  | modulo => remainder x y
  | power => Float.pow x y

end Arith

/-- A number without what comes after its point. -/
def truncated (x : Float) : Float := if x < 0 then x.ceil else x.floor

/-- A part of a text, from a position on and of some length, where positions in front of the text
count. -/
def part (text : String) (start : Int) (length : Option Int) : String :=
  let size : Int := text.length
  let first := max start 1
  let length := match length with
    | some n => if start < 1 then n - start else n
    | none => size
  if length ≤ 0 then "" else ((text.drop (first - 1).toNat).take length.toNat).toString

/-- The position of a text in another one, or 0 if it is no part of that. -/
def positionOf (part text : List Char) : Nat :=
  if part.isEmpty then 1
  else
    let rec search : (position : Nat) → List Char → Nat
      | _, [] => 0
      | position, c :: rest =>
        if part.isPrefixOf (c :: rest) then position else search (position + 1) rest
    search 1 text

/-- The time that six numbers tell. -/
def timeOf (text : String) : Int :=
  let numbers := (wordsOf [] text.toList).map fun word => word.toInt?
  match numbers with
  | some year :: some month :: some day :: some hour :: some minute :: some second :: _ =>
    let months := month - 1
    let year := year + months / 12
    let month := months % 12 + 1
    (Date.daysTo year month 1 + day - 1) * 86400 + hour * 3600 + minute * 60 + second
  | _ => -1

namespace Act

/-- After how many rounds of a loop some time has passed. -/
def roundsAtOnce : Nat := 64

/-- How long that many rounds take. -/
def roundsTime : Nat := 20000

/-- Lets time pass in a loop of which `n` rounds may follow. -/
def passTime (n : Nat) : Act Unit := do
  if n % roundsAtOnce = 0 then (Run.sleep roundsTime : Run Unit)

/-- A value as text that is printed. -/
def printedText (v : Value) : Act String := do
  match v with
  | .text s | .input s => return s
  | .unset => return ""
  | .number x => return numberText (← globalText "OFMT") x

/-- Prints values by a format, where `name` does so. -/
def formatted (name : String) (values : List Value) : Act (String × Option String) := do
  match values with
  | [] => return ("", none)
  | format :: rest =>
    let format := String.ofList ((← textOf format).toList.takeWhile (· ≠ '\x00'))
    let (text, fault?) := printed (← conversion) format rest
    return (text, fault?.map (·.message name format))

/-- The next random number, at least 0 and less than 1. -/
def random : Act Value := do
  let next := ((← get).random * 6364136223846793005 + 1442695040888963407) % Nat.pow 2 64
  modify fun m => { m with random := next }
  return .number (Float.ofNat (next / Nat.pow 2 11) / Float.ofNat (Nat.pow 2 53))

/-- The value of a function that every program has, for functions that only need values. -/
def builtin (s : Setup) (name : String) (values : List Value) : Act Value := do
  let value (i : Nat) : Value := values.getD i .unset
  let number (i : Nat) : Float := (value i).toNumber
  match name with
  | "length" =>
    let text ← if values.isEmpty then record else textOf (value 0)
    return .ofNat text.length
  | "index" => return .ofNat (positionOf (← textOf (value 1)).toList (← textOf (value 0)).toList)
  | "substr" =>
    let length := values[2]?.map fun v => clamped v.toNumber
    return .text (part (← textOf (value 0)) (clamped (number 1)) length)
  | "sprintf" =>
    match ← formatted "sprintf" values with
    | (_, some text) => fault text
    | (text, none) => return .text text
  | "close" => return .ofInt (← close (← textOf (value 0)))
  | "fflush" =>
    let isThere ← flush (← if values.isEmpty then pure outputName else textOf (value 0))
    return .number (if isThere then 0 else -1)
  | "system" => return .ofNat (← system s.become (← textOf (value 0)))
  | "toupper" => return .text ((← textOf (value 0)).map Char.toUpper)
  | "tolower" => return .text ((← textOf (value 0)).map Char.toLower)
  | "sin" => return .number (number 0).sin
  | "cos" => return .number (number 0).cos
  | "atan2" => return .number (Float.atan2 (number 0) (number 1))
  | "exp" => return .number (number 0).exp
  | "log" => return .number (number 0).log
  | "sqrt" => return .number (number 0).sqrt
  | "int" => return .number (truncated (number 0))
  | "rand" => random
  | "srand" =>
    let before := (← get).seed
    let seed ← match values with
      | v :: _ => pure v
      | [] => do
        let scene ← (Run.scene : Run Scene)
        pure (.ofInt (scene.now / Int.pow 10 9))
    modify fun m => { m with seed := seed, random := (clamped seed.toNumber).natAbs }
    return before
  | "systime" =>
    let scene ← (Run.scene : Run Scene)
    return .ofInt (scene.now / Int.pow 10 9)
  | "mktime" => return .ofInt (timeOf (← textOf (value 0)))
  | "strftime" =>
    let scene ← (Run.scene : Run Scene)
    let directives ← if values.isEmpty then pure "%c" else textOf (value 0)
    let time : Timestamp := if values.length < 2 then scene.now else clamped (number 1) * Int.pow 10 9
    return .text (Date.format time directives)
  | _ => return .unset

/-- Finds a regular expression in a text, and tells where. -/
def findIn (text : String) (r : Regex) : Act Value := do
  let (start, length) : Int × Int := match r.search? (subject text) 0 with
    | some m => (m.start + 1, m.stop - m.start)
    | none => (0, -1)
  setGlobal "RSTART" (.ofInt start)
  setGlobal "RLENGTH" (.ofInt length)
  return .ofInt start

/-- Puts the parts of a text into an array, and tells how many there are. -/
def splitInto (id : Nat) (text : String) (sep : Separator) : Act Value := do
  let parts := sep.split text
  changeArray id fun _ => Elements.ofRow (parts.map Value.input)
  return .ofNat parts.length

/-- The number of the array that a name stands for. -/
def arrayId (s : Setup) (name : String) : Act Nat := do
  match (← get).locals.lookup name with
  | some (.array id) => return id
  | _ => return (s.arrayIds.get? name).getD 0

/-- Whether a name stands for an array. -/
def isArray (s : Setup) (name : String) : Act Bool := do
  match (← get).locals.lookup name with
  | some (.array _) => return true
  | some (.value _) => return false
  | none => return s.arrayIds.contains name

/-- The value in a slot. -/
def load : Slot → Act Value
  | .variable name => valueOf name
  | .element id index => withArray id (·.get index)
  | .field n => field n

/-- Puts a value into a slot. -/
def store (v : Value) : Slot → Act Unit
  | .variable name => setVariable name v
  | .element id index => changeArray id (·.set index v)
  | .field n => setField n v

mutual

/-- The value of an expression, in at most `n` steps. -/
def eval (s : Setup) : (n : Nat) → Expr → Act Value
  | 0, _ => return .unset
  | n + 1, e => do
    match e with
    | .number x => return .number x
    | .text t => return .text t
    | .regex r => return .ofBool (r.matchesIn (subject (← record)))
    | .variable name => valueOf name
    | .element array indices =>
      let id ← arrayId s array
      let index ← indexOf s n indices
      element id index
    | .field e =>
      let i ← fieldNumber (← eval s n e)
      field i
    | .group e => eval s n e
    | .assign target op e =>
      let slot ← slotOf s n target
      let v ← eval s n e
      let v ← match op with
        | none => pure v
        | some op => do
          let before ← load slot
          pure (.number (op.apply before.toNumber v.toNumber))
      store v slot
      return v
    | .step target isUp isBefore =>
      let slot ← slotOf s n target
      let before := (← load slot).toNumber
      let after := if isUp then before + 1 else before - 1
      store (.number after) slot
      return .number (if isBefore then after else before)
    | .negate e => return .number (-(← eval s n e).toNumber)
    | .plus e => return .number (← eval s n e).toNumber
    | .not e => return .ofBool (!(← eval s n e).isTrue)
    | .arith op a b =>
      let x := (← eval s n a).toNumber
      let y := (← eval s n b).toNumber
      return .number (op.apply x y)
    | .join a b =>
      let first ← textOf (← eval s n a)
      let second ← textOf (← eval s n b)
      return .text (first ++ second)
    | .compare r a b =>
      let a ← eval s n a
      let b ← eval s n b
      return .ofBool (r.holds (Value.order (← conversion) a b))
    | .fits isNegated a b =>
      let text ← textOf (← eval s n a)
      let r ← searchOf s n b
      return .ofBool (r.matchesIn (subject text) != isNegated)
    | .both a b =>
      if (← eval s n a).isTrue then return .ofBool (← eval s n b).isTrue else return .number 0
    | .either a b =>
      if (← eval s n a).isTrue then return .number 1 else return .ofBool (← eval s n b).isTrue
    | .choose test a b => if (← eval s n test).isTrue then eval s n a else eval s n b
    | .isIn indices array =>
      let index ← indexOf s n indices
      let id ← arrayId s array
      changeArray id (·.touch false index)
      return .ofBool (← withArray id (·.contains index))
    | .call name args => callFunction s n name args
    | .builtin name args =>
      match name, args with
      | "length", [.variable array] =>
        if ← isArray s array then
          let id ← arrayId s array
          return .ofNat (← withArray id (·.size))
        else builtin s name [← valueOf array]
      | "split", text :: .variable array :: rest =>
        let text ← textOf (← eval s n text)
        let id ← arrayId s array
        let sep ← match rest with
          | [] => separator (← globalText "FS")
          | .regex r :: _ => pure (.search r)
          | e :: _ => separator (← textOf (← eval s n e))
        splitInto id text sep
      | "match", [text, pattern] =>
        let text ← textOf (← eval s n text)
        findIn text (← searchOf s n pattern)
      | "sub", pattern :: by_ :: rest | "gsub", pattern :: by_ :: rest =>
        let r ← searchOf s n pattern
        let by_ ← textOf (← eval s n by_)
        let target := rest.headD (.field (.number 0))
        let isSlot := Reader.isTarget target
        let slot ← if isSlot then slotOf s n (Reader.asTarget target) else pure (.field 0)
        let text ← if isSlot then do textOf (← load slot) else do textOf (← eval s n target)
        let (count, changed) := substitute r (name = "gsub") by_ text
        if 0 < count && isSlot then store (.text changed) slot
        return .ofNat count
      | _, _ => builtin s name (← evalAll s n args)
    | .read target =>
      match ← takeMain maxReads with
      | none => return .number 0
      | some text =>
        match target with
        | none => setRecord text
        | some target => store (.input text) (← slotOf s n target)
        return .number 1
    | .readFile target path => readInto s n target false path
    | .readCommand target words => readInto s n target true words
termination_by structural n => n

/-- The values of expressions, in at most `n` steps. -/
def evalAll (s : Setup) : (n : Nat) → List Expr → Act (List Value)
  | 0, _ | _, [] => return []
  | n + 1, e :: rest => do
    let v ← eval s n e
    return v :: (← evalAll s n rest)
termination_by structural n => n

/-- Reads a record from where an expression leads, in at most `n` steps. -/
def readInto (s : Setup) : (n : Nat) → (target : Option Expr) → (isCommand : Bool) → Expr → Act Value
  | 0, _, _, _ => return .unset
  | n + 1, target, isCommand, e => do
    let slot? ← match target with
      | some target => some <$> slotOf s n target
      | none => pure none
    let name ← textOf (← eval s n e)
    match ← takeFrom s.become isCommand name with
    | .error _ => return .number (-1)
    | .ok none => return .number 0
    | .ok (some text) =>
      match slot? with
      | none => setRecord text
      | some slot => store (.input text) slot
      return .number 1
termination_by structural n => n

/-- The index that expressions make up, in at most `n` steps. -/
def indexOf (s : Setup) : (n : Nat) → List Expr → Act Elements.Index
  | 0, _ => return .text ""
  | n + 1, indices => do
    let values ← evalAll s n indices
    match values with
    | [v] => return .of (← conversion) v
    | _ => return .text ((← globalText "SUBSEP").intercalate (← values.mapM textOf))
termination_by structural n => n

/-- The regular expression that an expression is or writes, in at most `n` steps. -/
def searchOf (s : Setup) : (n : Nat) → Expr → Act Regex
  | 0, _ => return .nothing
  | n + 1, e => do
    match e with
    | .regex r => return r
    | e => search (← textOf (← eval s n e))
termination_by structural n => n

/-- The slot that an expression names, in at most `n` steps. -/
def slotOf (s : Setup) : (n : Nat) → Expr → Act Slot
  | 0, _ => return .field 0
  | n + 1, e => do
    match e with
    | .variable name => return .variable name
    | .element array indices =>
      let id ← arrayId s array
      let index ← indexOf s n indices
      changeArray id (·.touch true index)
      return .element id index
    | .field e => return .field (← fieldNumber (← eval s n e))
    | _ => return .field 0
termination_by structural n => n

/-- Calls a function, in at most `n` steps. -/
def callFunction (s : Setup) : (n : Nat) → (name : String) → (args : List Expr) → Act Value
  | 0, _, _ => return .unset
  | n + 1, name, args => do
    match s.program.functions.lookup name with
    | none => return .unset
    | some f =>
      let (locals, own) ← bindParams s n f.params args
      let before := (← get).locals
      modify fun m => { m with locals := locals }
      let flow ← exec s n f.body
      modify fun m => { m with locals := before, free := own ++ m.free }
      match flow with
      | .returned v => return v
      | _ => return .unset
termination_by structural n => n

/-- What the parameters of a function stand for, and the arrays that were made for them, in at most `n`
steps. -/
def bindParams (s : Setup) : (n : Nat) → (params : List (String × Bool)) → (args : List Expr) →
    Act (List (String × Local) × List Nat)
  | 0, _, _ | _, [], _ => return ([], [])
  | n + 1, (param, isArray) :: params, args => do
    let (bound, own) ← match isArray, args.head? with
      | true, some (.variable array) => do pure (Local.array (← arrayId s array), [])
      | true, _ => do
        let id ← newArray
        pure (.array id, [id])
      | false, some e => do pure (.value (← eval s n e), [])
      | false, none => pure (.value .unset, [])
    let (others, more) ← bindParams s n params args.tail
    return ((param, bound) :: others, own ++ more)
termination_by structural n => n

/-- Does what a statement says, in at most `n` steps. -/
def exec (s : Setup) : (n : Nat) → Statement → Act Flow
  | 0, _ => return .on
  | n + 1, statement => do
    match statement with
    | .expr e =>
      let _ ← eval s n e
      return .on
    | .print args target =>
      let texts ← match args with
        | [] => do pure [← record]
        | _ => do (← evalAll s n args).mapM printedText
      let text := (← globalText "OFS").intercalate texts ++ (← globalText "ORS")
      printTo s n target text
      return .on
    | .printf args target =>
      let (text, fault?) ← formatted "printf" (← evalAll s n args)
      printTo s n target text
      match fault? with
      | some text => fault text
      | none => return .on
    | .block body => execAll s n body
    | .choose test yes no => if (← eval s n test).isTrue then exec s n yes else exec s n no
    | .whileDo test body => loop s n (some test) (.block []) body
    | .doWhile body test =>
      match ← exec s n body with
      | .leave => return .on
      | .returned v => return .returned v
      | _ => loop s n (some test) (.block []) body
    | .forDo start test step body =>
      let _ ← exec s n start
      loop s n test step body
    | .forEach name array body =>
      let id ← arrayId s array
      let keys ← withArray id (·.keys)
      changeArray id fun _ => keys.2
      loopOver s n name body keys.1
    | .leaveLoop => return .leave
    | .nextRound => return .round
    | .nextRecord => throw .nextRecord
    | .nextFile => throw .nextFile
    | .exit status =>
      match status with
      | some e =>
        let v ← eval s n e
        modify fun m => { m with status := (clamped v.toNumber % 256).toNat }
      | none => pure ()
      throw .exit
    | .return value =>
      match value with
      | some e => return .returned (← eval s n e)
      | none => return .returned .unset
    | .delete array indices =>
      let id ← arrayId s array
      let index ← indexOf s n indices
      changeArray id (·.erase index)
      return .on
    | .clear array =>
      let id ← arrayId s array
      changeArray id fun _ => .empty
      return .on
termination_by structural n => n

/-- Does what statements say, one after the other, in at most `n` steps. -/
def execAll (s : Setup) : (n : Nat) → List Statement → Act Flow
  | 0, _ | _, [] => return .on
  | n + 1, statement :: rest => do
    match ← exec s n statement with
    | .on => execAll s n rest
    | flow => return flow
termination_by structural n => n

/-- Repeats a statement as long as a test holds, with a step after each round, in at most `n` steps. -/
def loop (s : Setup) : (n : Nat) → (test : Option Expr) → (step body : Statement) → Act Flow
  | 0, _, _, _ => return .on
  | n + 1, test, step, body => do
    passTime n
    let goesOn ← match test with
      | some test => do pure (← eval s n test).isTrue
      | none => pure true
    if !goesOn then return .on
    match ← exec s n body with
    | .leave => return .on
    | .returned v => return .returned v
    | _ =>
      let _ ← exec s n step
      loop s n test step body
termination_by structural n => n

/-- Does what a statement says for each of some texts, in at most `n` steps. -/
def loopOver (s : Setup) : (n : Nat) → (name : String) → (body : Statement) → List String → Act Flow
  | 0, _, _, _ | _, _, _, [] => return .on
  | n + 1, name, body, key :: rest => do
    passTime n
    setVariable name (.text key)
    match ← exec s n body with
    | .leave => return .on
    | .returned v => return .returned v
    | _ => loopOver s n name body rest
termination_by structural n => n

/-- Prints text to a target, in at most `n` steps. -/
def printTo (s : Setup) : (n : Nat) → Target → String → Act Unit
  | 0, _, _ => return ()
  | n + 1, target, text => do
    match target with
    | .output => say text
    | .file e => sayTo s.become false false (← textOf (← eval s n e)) text
    | .append e => sayTo s.become false true (← textOf (← eval s n e)) text
    | .command e => sayTo s.become true false (← textOf (← eval s n e)) text
termination_by structural n => n

end

/-! ## Programs -/

/-- How many steps a program can take inside each other. -/
def maxSteps : Nat := Nat.pow 10 15

/-- Does something, and tells what leads out of it, be it out of a function. -/
def caught (act : Act Unit) : Act (Option Jump) :=
  ExceptT.mk do
    match ← act.run with
    | .ok _ => return .ok none
    | .error jump =>
      modify fun m => { m with locals := [] }
      return .ok (some jump)

/-- Whether a rule selects the record. -/
def selects (s : Setup) (i : Nat) (pattern : RulePattern) : Act Bool := do
  match pattern with
  | .always => return true
  | .test e => return (← eval s maxSteps e).isTrue
  | .range first last =>
    let wasInside := ((← get).ranges[i]?).getD false
    let isInside ← if wasInside then pure true else do pure (← eval s maxSteps first).isTrue
    if !isInside then return false
    let isOver := (← eval s maxSteps last).isTrue
    modify fun m => { m with ranges := m.ranges.setIfInBounds i (!isOver) }
    return true

/-- Does what the rules say for a record. -/
def runRules (s : Setup) : Act Unit :=
  s.program.rules.zipIdx.forM fun (rule, i) => do
    if ← selects s i rule.pattern then
      let _ ← exec s maxSteps (rule.body.getD (.print [] .output))

/-- Runs the rules for each record, at most `n`. The outcome tells whether the program was to end. -/
def runRecords (s : Setup) : (n : Nat) → Act Bool
  | 0 => return false
  | n + 1 => do
    passTime n
    match ← takeMain maxReads with
    | none => return false
    | some text =>
      setRecord text
      match ← caught (runRules s) with
      | some .exit => return true
      | some .nextFile =>
        modify fun m => { m with main := none }
        runRecords s n
      | _ => runRecords s n

/-- Does what some statements say, one after the other, until the program is to end. -/
def runAll (s : Setup) : List Statement → Act Bool
  | [] => return false
  | statement :: rest => do
    match ← caught (do let _ ← exec s maxSteps statement) with
    | some .exit => return true
    | _ => runAll s rest

/-- Runs a program, and gives its status. -/
def runProgram (s : Setup) : Act Nat := do
  let isOver ← runAll s s.program.first
  let needsRecords := !(s.program.rules.isEmpty && s.program.last.isEmpty)
  if !isOver && needsRecords then
    let _ ← runRecords s maxReads
  let _ ← runAll s s.program.last
  closeAll
  return (← get).status

end Act

end Rebuild.Shell.Awk
