import Rebuild.Shell.Awk
import Rebuild.Shell.Awk.Search

/-!
# Reading record programs

Expressions are read by the ranks of their operators. What stands beside each other without an operator
between is joined. Names become those of arrays or of variables by how they are used, and a parameter of a
function is an array if the function, or one that it calls, uses it as one.
-/

namespace Rebuild.Shell.Awk

/-- A name in a program: that of a parameter of a function, or one that is known everywhere. -/
abbrev ScopedName := Option String × String

/-- What is left of a program, how names are used in it, and what it is read into. -/
structure ReadState where
  rest : List Lexeme
  /-- The function under way, with its parameters. -/
  function : Option String
  params : List String
  /-- How many loops are under way, and whether records are at hand. -/
  loops : Nat
  hasRecord : Bool
  arrays : List ScopedName
  scalars : List ScopedName
  /-- Names that are given to functions: the function, the number of the parameter, and the name. -/
  passed : List (String × Nat × ScopedName)
  called : List (String × Nat × Nat)
  functions : List (String × List String × Statement)
  first : List Statement
  rules : List Rule
  last : List Statement
  /-- Whether `>` ends an expression. -/
  stopsAtGreater : Bool

abbrev Reader := StateT ReadState (Except ProgramFault)

namespace Reader

/-! ## Lexemes -/

def lexeme : Reader Lexeme := do return (← get).rest.headD default

def token : Reader Token := do return (← lexeme).token

def skip : Reader Unit := modify fun s => { s with rest := s.rest.tail }

def faultAt {α : Type} (text : String) : Reader α := do
  throw (.at (← lexeme).line text)

/-- Complains about the next lexeme. -/
def unexpected {α : Type} : Reader α := do
  let next ← lexeme
  let (endsParens, endsBraces) := match next.token with
    | .newline => (true, false)
    | .stop | .word "BEGIN" | .word "END" => (true, true)
    | .mark ";" | .mark "\x7d" => (true, false)
    | _ => (false, false)
  if endsParens && 0 < next.parens then faultAt ("missing ) near " ++ next.shown)
  if endsBraces && 0 < next.braces then faultAt ("missing \x7d near " ++ next.shown)
  faultAt ("syntax error at or near " ++ next.shown)

/-- Whether the next token is a mark. -/
def isMark (mark : String) : Reader Bool := do
  match ← token with
  | .mark m => return m = mark
  | _ => return false

/-- Whether the next token is a certain word. -/
def isWord (word : String) : Reader Bool := do
  match ← token with
  | .word w => return w = word
  | _ => return false

/-- Skips a mark that has to come next. -/
def expect (mark : String) : Reader Unit := do
  if ← isMark mark then skip else unexpected

/-- Skips a mark if it comes next. -/
def skipMark (mark : String) : Reader Bool := do
  if ← isMark mark then
    skip
    return true
  else return false

/-- Skips line ends. -/
def skipLines : Reader Unit :=
  modify fun s => { s with rest := s.rest.dropWhile fun l => match l.token with
    | .newline => true
    | _ => false }

/-! ## Names -/

/-- The name with its scope. -/
def placed (name : String) : Reader ScopedName := do
  let s ← get
  return (if s.params.contains name then s.function else none, name)

/-- Uses a name as that of an array. -/
def useArray (name : String) : Reader Unit := do
  let placed ← placed name
  let s ← get
  if s.scalars.contains placed then faultAt ("illegal reference to variable " ++ name)
  if !s.arrays.contains placed then set { s with arrays := placed :: s.arrays }

/-- Uses a name as that of a variable. -/
def useScalar (name : String) : Reader Unit := do
  let placed ← placed name
  let s ← get
  if s.arrays.contains placed then faultAt ("illegal reference to array " ++ name)
  if !s.scalars.contains placed then set { s with scalars := placed :: s.scalars }

/-! ## Expressions -/

/-- The operator that assigns. -/
def assignment? : Token → Option (Option Arith)
  | .mark "=" => some none
  | .mark "+=" => some (some .add)
  | .mark "-=" => some (some .subtract)
  | .mark "*=" => some (some .multiply)
  | .mark "/=" => some (some .divide)
  | .mark "%=" => some (some .modulo)
  | .mark "^=" => some (some .power)
  | _ => none

/-- The operator that compares. -/
def relation? : Token → Option Relation
  | .mark "<" => some .less
  | .mark "<=" => some .lessEqual
  | .mark "==" => some .equal
  | .mark "!=" => some .notEqual
  | .mark ">=" => some .greaterEqual
  | .mark ">" => some .greater
  | _ => none

/-- The rank of an operator between two expressions. -/
def rank? : Token → Option Nat
  | .mark "?" => some 1
  | .mark "||" => some 2
  | .mark "&&" => some 3
  | .word "in" => some 4
  | .mark "~" | .mark "!~" => some 5
  | t => (relation? t).map fun _ => 6

/-- The operator on numbers, with its rank. -/
def arith? : Token → Option (Arith × Nat)
  | .mark "+" => some (.add, 1)
  | .mark "-" => some (.subtract, 1)
  | .mark "*" => some (.multiply, 2)
  | .mark "/" => some (.divide, 2)
  | .mark "%" => some (.modulo, 2)
  | .mark "^" => some (.power, 5)
  | _ => none

/-- Whether a token can begin an operand that is joined to what stands in front of it. -/
def beginsOperand : Token → Bool
  | .number _ | .text _ | .regex _ | .name _ | .called _ | .builtin _ => true
  | .word w => w = "getline"
  | .mark m => ["$", "!", "(", "-", "+", "++", "--"].contains m
  | _ => false

/-- Whether a value can be assigned to an expression. -/
def isTarget : Expr → Bool
  | .variable _ | .element _ _ | .field _ => true
  | .group (.field _) => true
  | _ => false

/-- The expression without the parentheses around it that do not matter for assigning. -/
def asTarget : Expr → Expr
  | .group (.field e) => .field e
  | e => e

/-- How many arguments the functions take that every program has. -/
def argumentRange : String → Nat × Nat
  | "length" => (0, 1)
  | "index" | "atan2" => (2, 2)
  | "substr" => (2, 3)
  | "sprintf" => (1, 1000)
  | "split" => (2, 3)
  | "match" => (2, 2)
  | "sub" | "gsub" => (2, 3)
  | "fflush" | "srand" => (0, 1)
  | "rand" | "systime" => (0, 0)
  | "mktime" => (1, 1)
  | "strftime" => (0, 3)
  | _ => (1, 1)

/-- The expression that a text writes. -/
def readRegex (text : String) : Reader Expr := do
  match readSearch text with
  | .ok r => return .regex r
  | .error fault => faultAt fault

/-- Whether parentheses that begin after the next lexeme enclose a list, and what comes after them. -/
def listAhead (lexemes : List Lexeme) : Bool × Token :=
  let (_, isList, after) := lexemes.foldl (fun ((depth, isList, after) : Int × Bool × Option Token) l =>
    match after with
    | some _ => (depth, isList, after)
    | none =>
      if depth < 0 then (depth, isList, some l.token)
      else match l.token with
        | .mark "(" | .mark "[" => (depth + 1, isList, none)
        | .mark ")" | .mark "]" => (depth - 1, isList, none)
        | .mark "," => (depth, isList || depth = 0, none)
        | _ => (depth, isList, none)) (0, false, none)
  (isList, after.getD .stop)

/-- Reads with `>` being an operator or not. -/
def withGreater {α : Type} (isOperator : Bool) (act : Reader α) : Reader α := do
  let before := (← get).stopsAtGreater
  modify fun s => { s with stopsAtGreater := !isOperator }
  let found ← act
  modify fun s => { s with stopsAtGreater := before }
  return found

mutual

/-- Reads an expression whose operators have at least some rank, in at most `n` steps. -/
def readExpr : (n : Nat) → (rank : Nat) → Reader Expr
  | 0, _ => unexpected
  | n + 1, rank => do
    let first ← readJoined n
    match assignment? (← token) with
    | some op =>
      if !isTarget first then unexpected
      skip
      return .assign (asTarget first) op (← readExpr n 1)
    | none => readOperators n rank first
termination_by structural n => n

/-- Reads the operators after an expression, in at most `n` steps. -/
def readOperators : (n : Nat) → (rank : Nat) → Expr → Reader Expr
  | 0, _, e => return e
  | n + 1, rank, e => do
    let t ← token
    match rank? t with
    | none => return e
    | some found =>
      if found < rank then return e
      if (← isMark ">") && (← get).stopsAtGreater then return e
      skip
      if found = 1 then
        skipLines
        let yes ← readExpr n 1
        skipLines
        expect ":"
        skipLines
        return .choose e yes (← readExpr n 1)
      if found = 4 then
        match ← token with
        | .name array =>
          useArray array
          skip
          return ← readOperators n rank (.isIn [e] array)
        | _ => unexpected
      if found = 2 || found = 3 then skipLines
      let other ← readExpr n (found + 1)
      let other ← match found, other with
        | 5, .text s => readRegex s
        | _, _ => pure other
      let both := match t with
        | .mark "||" => Expr.either e other
        | .mark "&&" => .both e other
        | .mark "~" => .fits false e other
        | .mark "!~" => .fits true e other
        | _ => .compare ((relation? t).getD .equal) e other
      readOperators n rank both
termination_by structural n => n

/-- Reads operands that are joined, in at most `n` steps. -/
def readJoined : (n : Nat) → Reader Expr
  | 0 => unexpected
  | n + 1 => do
    let first ← readArith n 1
    readMore n first
termination_by structural n => n

/-- Reads further operands that are joined to an expression, in at most `n` steps. -/
def readMore : (n : Nat) → Expr → Reader Expr
  | 0, e => return e
  | n + 1, e => do
    if beginsOperand (← token) then
      let next ← readArith n 1
      readMore n (.join e next)
    else return e
termination_by structural n => n

/-- Reads an operand with operators on numbers of at least some rank, in at most `n` steps. -/
def readArith : (n : Nat) → (rank : Nat) → Reader Expr
  | 0, _ => unexpected
  | n + 1, rank => do
    let first ← readUnary n
    readArithMore n rank first
termination_by structural n => n

/-- Reads the operators on numbers after an operand, in at most `n` steps. -/
def readArithMore : (n : Nat) → (rank : Nat) → Expr → Reader Expr
  | 0, _, e => return e
  | n + 1, rank, e => do
    if rank ≤ 4 && (← isMark "|") then
      match ((← get).rest[1]?).map (·.token) with
      | some (.word "getline") =>
        skip
        skip
        let target ← readTarget? n
        return ← readArithMore n rank (.readCommand target e)
      | _ => return e
    match arith? (← token) with
    | none => return e
    | some (op, found) =>
      if found < rank then return e
      skip
      let other ← readArith n (if op = .power then found else found + 1)
      readArithMore n rank (.arith op e other)
termination_by structural n => n

/-- Reads an operand with what stands directly in front of it, in at most `n` steps. -/
def readUnary : (n : Nat) → Reader Expr
  | 0 => unexpected
  | n + 1 => do
    match ← token with
    | .mark "!" =>
      skip
      return .not (← readArith n 4)
    | .mark "-" =>
      skip
      return .negate (← readArith n 4)
    | .mark "+" =>
      skip
      return .plus (← readArith n 4)
    | .mark "++" | .mark "--" =>
      let isUp ← isMark "++"
      skip
      let target ← readPrimary n
      if !isTarget target then unexpected
      return .step (asTarget target) isUp true
    | _ =>
      let e ← readPrimary n
      if isTarget e && ((← isMark "++") || (← isMark "--")) then
        let isUp ← isMark "++"
        skip
        return .step (asTarget e) isUp false
      return e
termination_by structural n => n

/-- Reads what a record is read into, if that is given, in at most `n` steps. -/
def readTarget? : (n : Nat) → Reader (Option Expr)
  | 0 => return none
  | n + 1 => do
    match ← token with
    | .name _ | .mark "$" => return some (← readPrimary n)
    | _ => return none
termination_by structural n => n

/-- Reads an operand without operators, in at most `n` steps. -/
def readPrimary : (n : Nat) → Reader Expr
  | 0 => unexpected
  | n + 1 => do
    match ← token with
    | .number x =>
      skip
      return .number x
    | .text s =>
      skip
      return .text s
    | .regex s =>
      let e ← readRegex s
      skip
      return e
    | .mark "$" =>
      skip
      match ← token with
      | .mark "-" | .mark "+" | .mark "!" | .mark "++" | .mark "--" => return .field (← readUnary n)
      | _ => return .field (← readPrimary n)
    | .mark "(" =>
      let (isList, _) := listAhead (← get).rest.tail
      skip
      if isList then
        let indices ← withGreater true (readList n)
        expect ")"
        if !(← isWord "in") then unexpected
        skip
        match ← token with
        | .name array =>
          useArray array
          skip
          return .isIn indices array
        | _ => unexpected
      else
        let e ← withGreater true (readExpr n 1)
        expect ")"
        return .group e
    | .name name =>
      skip
      if ← isMark "[" then
        useArray name
        skip
        let indices ← withGreater true (readList n)
        expect "]"
        return .element name indices
      let isFunction := (← get).functions.any (·.1 = name)
      if isFunction && (← isMark "(") then readCall n name
      else
        useScalar name
        return .variable name
    | .called name =>
      skip
      readCall n name
    | .builtin name =>
      skip
      readBuiltin n name
    | .word "getline" =>
      skip
      let target ← readTarget? n
      if ← skipMark "<" then
        return .readFile target (← readArith n 5)
      else return .read target
    | _ => unexpected
termination_by structural n => n

/-- Reads expressions with commas between, in at most `n` steps. -/
def readList : (n : Nat) → Reader (List Expr)
  | 0 => unexpected
  | n + 1 => do
    let e ← readExpr n 1
    if ← skipMark "," then
      skipLines
      return e :: (← readList n)
    else return [e]
termination_by structural n => n

/-- Reads the arguments of a function after its name, in at most `n` steps. -/
def readCall : (n : Nat) → (name : String) → Reader Expr
  | 0, _ => unexpected
  | n + 1, name => do
    let line := (← lexeme).line
    expect "("
    skipLines
    let args ← if ← isMark ")" then pure [] else withGreater true (readArguments n name 0)
    expect ")"
    modify fun s => { s with called := (name, args.length, line) :: s.called }
    return .call name args
termination_by structural n => n

/-- Reads the arguments of a function from a certain one on, in at most `n` steps. A name by itself can be
that of an array. -/
def readArguments : (n : Nat) → (name : String) → (position : Nat) → Reader (List Expr)
  | 0, _, _ => unexpected
  | n + 1, name, position => do
    let e ← match (← get).rest with
      | ⟨.name arg, _, _, _, _⟩ :: ⟨.mark m, _, _, _, _⟩ :: _ =>
        if m = "," || m = ")" then
          skip
          let placed ← placed arg
          modify fun s => { s with passed := (name, position, placed) :: s.passed }
          pure (.variable arg)
        else readExpr n 1
      | _ => readExpr n 1
    if ← skipMark "," then
      skipLines
      return e :: (← readArguments n name (position + 1))
    else return [e]
termination_by structural n => n

/-- Reads the arguments of a function that every program has, in at most `n` steps. -/
def readBuiltin : (n : Nat) → (name : String) → Reader Expr
  | 0, _ => unexpected
  | n + 1, name => do
    if !(← isMark "(") then
      if name = "length" then return .builtin name [] else unexpected
    skip
    let args ← withGreater true (do
      match name, (← get).rest with
      | _, ⟨.mark ")", _, _, _, _⟩ :: _ => pure []
      | "length", ⟨.name arg, _, _, _, _⟩ :: ⟨.mark ")", _, _, _, _⟩ :: _ =>
        skip
        pure [.variable arg]
      | "length", _ => pure [← readExpr n 1]
      | "split", _ =>
        let text ← readExpr n 1
        expect ","
        skipLines
        match ← token with
        | .name array =>
          useArray array
          skip
          if ← skipMark "," then
            skipLines
            pure [text, .variable array, ← readExpr n 1]
          else pure [text, .variable array]
        | _ => unexpected
      | _, _ => readList n)
    if !(← isMark ")") then unexpected
    let (least, most) := argumentRange name
    if args.length < least || most < args.length then
      faultAt ("wrong number of arguments in call to " ++ name)
    expect ")"
    return .builtin name args
termination_by structural n => n

end

/-! ## Statements -/

/-- Reads the end of a simple statement. -/
def readEnd : Reader Unit := do
  match ← token with
  | .mark ";" =>
    skip
    skipLines
  | .newline => skipLines
  | .mark "\x7d" => return ()
  | _ => unexpected

/-- Reads the end of a statement after a block. -/
def readAfterBlock : Reader Unit := skipLines

/-- Reads a block in which a loop is under way. -/
def inLoop {α : Type} (act : Reader α) : Reader α := do
  modify fun s => { s with loops := s.loops + 1 }
  let found ← act
  modify fun s => { s with loops := s.loops - 1 }
  return found

/-- Reads what is printed, and where it goes to. -/
def readPrinted (n : Nat) : Reader (List Expr × Target) := do
  let args ← match ← token with
    | .newline | .mark ";" | .mark "\x7d" | .mark ">" | .mark ">>" | .mark "|" => pure []
    | .mark "(" =>
      let (isList, after) := listAhead (← get).rest.tail
      let isIn := match after with
        | .word w => w = "in"
        | _ => false
      if isList && !isIn then
        skip
        let args ← withGreater true (readList n)
        expect ")"
        pure args
      else withGreater false (readList n)
    | _ => withGreater false (readList n)
  match ← token with
  | .mark ">" =>
    skip
    return (args, .file (← readExpr n 1))
  | .mark ">>" =>
    skip
    return (args, .append (← readExpr n 1))
  | .mark "|" =>
    skip
    return (args, .command (← readExpr n 1))
  | _ => return (args, .output)

/-- Whether a simple statement ends here. -/
def isAtEnd : Reader Bool := do
  match ← token with
  | .newline | .mark ";" | .mark "\x7d" => return true
  | _ => return false

/-- Reads a statement that is neither a block nor has statements in it, without its end. -/
def readSimple (n : Nat) : Reader Statement := do
  match ← token with
  | .word "print" =>
    skip
    let (args, target) ← readPrinted n
    return .print args target
  | .word "printf" =>
    skip
    let (args, target) ← readPrinted n
    if args.isEmpty then unexpected
    return .printf args target
  | .word "break" =>
    if (← get).loops = 0 then faultAt "break statement outside of loop"
    skip
    return .leaveLoop
  | .word "continue" =>
    if (← get).loops = 0 then faultAt "continue statement outside of loop"
    skip
    return .nextRound
  | .word "next" =>
    if !(← get).hasRecord then faultAt "improper use of next"
    skip
    return .nextRecord
  | .word "nextfile" =>
    if !(← get).hasRecord then faultAt "improper use of nextfile"
    skip
    return .nextFile
  | .word "exit" =>
    skip
    return .exit (← if ← isAtEnd then pure none else some <$> readExpr n 1)
  | .word "return" =>
    if (← get).function.isNone then faultAt "return outside function body"
    skip
    return .return (← if ← isAtEnd then pure none else some <$> readExpr n 1)
  | .word "delete" =>
    skip
    match ← token with
    | .name array =>
      useArray array
      skip
      if ← skipMark "[" then
        let indices ← readList n
        expect "]"
        return .delete array indices
      return .clear array
    | _ => unexpected
  | _ => return .expr (← readExpr n 1)

mutual

/-- Reads statements up to the end of a block, in at most `n` steps. -/
def readStatements : (n : Nat) → Reader (List Statement)
  | 0 => unexpected
  | n + 1 => do
    skipLines
    if ← isMark "\x7d" then return []
    let statement ← readStatement n
    return statement :: (← readStatements n)
termination_by structural n => n

/-- Reads a block after its opening brace, in at most `n` steps. -/
def readBlock : (n : Nat) → Reader Statement
  | 0 => unexpected
  | n + 1 => do
    expect "\x7b"
    let body ← readStatements n
    expect "\x7d"
    return .block body
termination_by structural n => n

/-- Reads the statement that another one is about, after line ends, in at most `n` steps. -/
def readBody : (n : Nat) → Reader Statement
  | 0 => unexpected
  | n + 1 => do
    skipLines
    readStatement n
termination_by structural n => n

/-- Reads a statement with its end, in at most `n` steps. -/
def readStatement : (n : Nat) → Reader Statement
  | 0 => unexpected
  | n + 1 => do
    match ← token with
    | .mark "\x7b" =>
      let block ← readBlock n
      readAfterBlock
      return block
    | .mark ";" =>
      skip
      skipLines
      return .block []
    | .word "if" =>
      skip
      expect "("
      let test ← withGreater true (readExpr n 1)
      expect ")"
      let yes ← readBody n
      if ← isWord "else" then
        skip
        return .choose test yes (← readBody n)
      return .choose test yes (.block [])
    | .word "while" =>
      skip
      expect "("
      let test ← withGreater true (readExpr n 1)
      expect ")"
      if ← isMark ";" then
        skip
        skipLines
        return .whileDo test (.block [])
      return .whileDo test (← inLoop (readBody n))
    | .word "do" =>
      skip
      let body ← inLoop (readBody n)
      if !(← isWord "while") then unexpected
      skip
      expect "("
      let test ← withGreater true (readExpr n 1)
      expect ")"
      readEnd
      return .doWhile body test
    | .word "for" =>
      skip
      readFor n
    | _ =>
      let statement ← readSimple n
      readEnd
      return statement
termination_by structural n => n

/-- Reads a loop after its first word, in at most `n` steps. -/
def readFor : (n : Nat) → Reader Statement
  | 0 => unexpected
  | n + 1 => do
    expect "("
    match (← get).rest with
    | ⟨.name name, _, _, _, _⟩ :: ⟨.word "in", _, _, _, _⟩ :: ⟨.name array, _, _, _, _⟩ ::
        ⟨.mark ")", _, _, _, _⟩ :: rest =>
      useScalar name
      useArray array
      modify fun s => { s with rest := rest }
      return .forEach name array (← inLoop (readBody n))
    | _ =>
      let start ← if ← isMark ";" then pure (Statement.block []) else withGreater true (readSimple n)
      expect ";"
      skipLines
      let test ← if ← isMark ";" then pure none
        else pure (some (← withGreater true (readExpr n 1)))
      expect ";"
      skipLines
      let step ← if ← isMark ")" then pure (Statement.block []) else withGreater true (readSimple n)
      expect ")"
      if ← isMark ";" then
        skip
        skipLines
        return .forDo start test step (.block [])
      return .forDo start test step (← inLoop (readBody n))
termination_by structural n => n

end

/-! ## Programs -/

/-- Reads the names of parameters, in at most `n` steps. -/
def readParams : (n : Nat) → Reader (List String)
  | 0 => unexpected
  | n + 1 => do
    skipLines
    match ← token with
    | .name name =>
      skip
      if ← skipMark "," then
        let rest ← readParams n
        if rest.contains name then faultAt (name ++ " is duplicated in argument list")
        return name :: rest
      return [name]
    | _ => unexpected

/-- Reads a function after its first word. -/
def readFunction (n : Nat) : Reader Unit := do
  let name ← match ← token with
    | .name name | .called name => pure name
    | _ => unexpected
  skip
  expect "("
  if (← get).scalars.contains (none, name) || (← get).arrays.contains (none, name) then
    faultAt ("illegal reference to variable " ++ name)
  let params ← if ← isMark ")" then pure [] else readParams n
  if params.contains name then faultAt "function parameter cannot be the function"
  expect ")"
  skipLines
  modify fun s => { s with
    function := some name, params := params, loops := 0, hasRecord := false
    functions := s.functions.filter (·.1 ≠ name) ++ [(name, params, .block [])] }
  let body ← readBlock n
  modify fun s => { s with
    function := none, params := []
    functions := s.functions.map fun f => if f.1 = name then (name, params, body) else f }

/-- Reads a part of a program, and tells whether it ends with a block. -/
def readPart (n : Nat) : Reader Bool := do
  modify fun s => { s with loops := 0, hasRecord := false }
  match ← token with
  | .word "BEGIN" =>
    skip
    let body ← readBlock n
    modify fun s => { s with first := s.first ++ [body] }
    return true
  | .word "END" =>
    skip
    let body ← readBlock n
    modify fun s => { s with last := s.last ++ [body] }
    return true
  | .word "function" =>
    skip
    readFunction n
    return true
  | _ =>
    modify fun s => { s with hasRecord := true }
    let pattern ← if ← isMark "\x7b" then pure RulePattern.always else do
      let test ← readExpr n 1
      if ← skipMark "," then
        skipLines
        pure (.range test (← readExpr n 1))
      else pure (.test test)
    let body ← if ← isMark "\x7b" then pure (some (← readBlock n)) else pure none
    modify fun s => { s with rules := s.rules ++ [⟨pattern, body⟩] }
    return body.isSome

/-- Reads the parts of a program, in at most `n` steps. -/
def readParts : (n : Nat) → Reader Unit
  | 0 => unexpected
  | n + 1 => do
    match ← token with
    | .stop => return ()
    | .newline | .mark ";" =>
      skip
      readParts n
    | _ =>
      let endsWithBlock ← readPart n
      match ← token with
      | .stop | .newline | .mark ";" => readParts n
      | _ => if endsWithBlock then readParts n else unexpected

/-- The names of arrays, when names that are given to functions as arrays, and parameters that get arrays,
are counted as well, in at most `n` rounds. -/
def settled (params : String → Nat → Option ScopedName) (passed : List (String × Nat × ScopedName)) :
    (n : Nat) → List ScopedName → List ScopedName
  | 0, arrays => arrays
  | n + 1, arrays =>
    let more := passed.foldl (fun (arrays : List ScopedName) (name, position, placed) =>
      match params name position with
      | none => arrays
      | some param =>
        let isArray := arrays.contains param || arrays.contains placed
        if isArray then
          (if arrays.contains param then [] else [param]) ++
            (if arrays.contains placed then [] else [placed]) ++ arrays
        else arrays) arrays
    if more.length = arrays.length then arrays else settled params passed n more

end Reader

/-- Reads a program. -/
def Program.read (text : String) : Except ProgramFault Program := do
  let lexemes ← lexemes text
  let size := 20 * lexemes.length + 100
  let start : ReadState :=
    { rest := lexemes, function := none, params := [], loops := 0, hasRecord := false
      arrays := [(none, "ARGV"), (none, "ENVIRON")], scalars := [], passed := [], called := []
      functions := [], first := [], rules := [], last := [], stopsAtGreater := false }
  let (_, s) ← (Reader.readParts size).run start
  let lastLine := (lexemes.getLast?.map (·.line)).getD 1
  s.called.reverse.forM fun (name, count, line) => do
    match s.functions.lookup name with
    | none => throw (.at lastLine ("function " ++ name ++ " never defined"))
    | some (params, _) =>
      if params.length < count then throw (.at line ("too many arguments in call to " ++ name))
  let params (name : String) (position : Nat) : Option ScopedName :=
    ((s.functions.lookup name).bind (·.1[position]?)).map fun param => (some name, param)
  let arrays := Reader.settled params s.passed (s.passed.length + 1) s.arrays
  return {
    first := s.first
    rules := s.rules
    last := s.last
    functions := s.functions.map fun (name, params, body) =>
      (name, ⟨params.map fun param => (param, arrays.contains (some name, param)), body⟩)
    arrays := ["ARGV", "ENVIRON"] ++
      ((arrays.filter (·.1.isNone)).map (·.2)).filter fun name => name ≠ "ARGV" && name ≠ "ENVIRON" }

end Rebuild.Shell.Awk
