import Rebuild.Shell.Command

/-!
# Arithmetic expressions of the shell

Expressions over whole numbers of 64 bits, with the operators of C but for steps up and down. An
expression is read as a whole before anything is computed. `compute` then asks for variables only
where their values matter.
-/

namespace Rebuild.Shell

/-- Operators between two numbers. -/
inductive ArithmeticOp where
  | times | over | modulo
  | plus | minus
  | shiftLeft | shiftRight
  | less | lessEqual | greater | greaterEqual
  | equal | unequal
  | bitAnd | bitXor | bitOr
deriving DecidableEq, Repr

/-- An arithmetic expression. -/
inductive Arithmetic where
  | number (value : Int)
  | param (name : String)
  | negative (a : Arithmetic)
  | isZero (a : Arithmetic)
  | complement (a : Arithmetic)
  | binary (op : ArithmeticOp) (a b : Arithmetic)
  | both (a b : Arithmetic)
  | either (a b : Arithmetic)
  | choose (test yes no : Arithmetic)
  | assign (name : String) (op : Option ArithmeticOp) (value : Arithmetic)
deriving Repr

namespace Arithmetic

/-- A number brought into the range of 64 bits. -/
def wrap (n : Int) : Int :=
  Int.bmod n (Nat.pow 2 64)

/-- The outcome of a comparison. -/
def ofBool (b : Bool) : Int := if b then 1 else 0

/-- A number as a row of bits. -/
def bits (n : Int) : Nat :=
  (n % Int.pow 2 64).toNat

/-- What an operator makes of two numbers, unless it divides by zero. -/
def result? (op : ArithmeticOp) (a b : Int) : Option Int :=
  match op with
  | .times => some (wrap (a * b))
  | .over => if b = 0 then none else some (wrap (Int.tdiv a b))
  | .modulo => if b = 0 then none else some (wrap (Int.tmod a b))
  | .plus => some (wrap (a + b))
  | .minus => some (wrap (a - b))
  | .shiftLeft => some (wrap (a * Int.pow 2 (bits b % 64)))
  | .shiftRight => some (Int.fdiv a (Int.pow 2 (bits b % 64)))
  | .less => some (ofBool (a < b))
  | .lessEqual => some (ofBool (a ≤ b))
  | .greater => some (ofBool (b < a))
  | .greaterEqual => some (ofBool (b ≤ a))
  | .equal => some (ofBool (a = b))
  | .unequal => some (ofBool (a ≠ b))
  | .bitAnd => some (wrap (bits a &&& bits b : Nat))
  | .bitXor => some (wrap (bits a ^^^ bits b : Nat))
  | .bitOr => some (wrap (bits a ||| bits b : Nat))

/-! ## Numbers -/

/-- The value of a digit in bases up to sixteen. -/
def digit? (base : Nat) (c : Char) : Option Nat :=
  let value :=
    if c.isDigit then c.toNat - '0'.toNat
    else if 'a' ≤ c && c ≤ 'f' then c.toNat - 'a'.toNat + 10
    else if 'A' ≤ c && c ≤ 'F' then c.toNat - 'A'.toNat + 10
    else 16
  if value < base then some value else none

/-- The value of digits. -/
def valueOf (base : Nat) (digits : List Char) : Nat :=
  digits.foldl (fun value c => value * base + (digit? base c).getD 0) 0

/-- Reads digits in front of a text: their value, if there are any, and the text after them. Sixteen is
the base after `0x`, and eight after another zero. -/
def splitNumber? (text : List Char) : Option (Nat × List Char) :=
  let read (base : Nat) (text : List Char) : Nat × List Char :=
    let digits := text.takeWhile fun c => (digit? base c).isSome
    (valueOf base digits, text.drop digits.length)
  match text with
  | '0' :: x :: d :: rest =>
    if (x = 'x' || x = 'X') && (digit? 16 d).isSome then some (read 16 (d :: rest))
    else some (read 8 text)
  | '0' :: _ => some (read 8 text)
  | c :: _ => if c.isDigit then some (read 10 text) else none
  | [] => none

def isSpace (c : Char) : Bool :=
  c = ' ' || ('\t' ≤ c && c ≤ '\r')

/-- The number that a whole text writes, with an optional sign, blanks around it apart. -/
def integer? (text : String) : Option Int :=
  let body := text.toList.dropWhile isSpace
  let (isNegative, body) := match body with
    | '-' :: rest => (true, rest)
    | '+' :: rest => (false, rest)
    | _ => (false, body)
  match splitNumber? body with
  | some (value, rest) =>
    if rest.all isSpace then some (if isNegative then -(value : Int) else value) else none
  | none => none

/-! ## Reading -/

/-- A token of an expression. -/
inductive Token where
  | number (value : Int)
  | name (text : String)
  | op (text : String)
  | bad
deriving DecidableEq, Repr

/-- The operators, those first that others begin with. -/
def operators : List String :=
  ["<<=", ">>=", "<<", ">>", "<=", ">=", "==", "!=", "&&", "||", "+=", "-=", "*=", "/=", "%=", "&=",
    "^=", "|=", "+", "-", "*", "/", "%", "(", ")", "<", ">", "!", "~", "&", "^", "|", "?", ":", "="]

/-- The tokens of an expression, in at most `n` steps. -/
def tokens : (n : Nat) → List Char → List Token
  | 0, _ | _, [] => []
  | n + 1, c :: rest =>
    if isSpace c then tokens n rest
    else if isNameStart c then
      .name (String.ofList ((c :: rest).takeWhile isNameChar)) ::
        tokens n ((c :: rest).dropWhile isNameChar)
    else match splitNumber? (c :: rest) with
      | some (value, rest) => .number (min value (Nat.pow 2 63 - 1) : Nat) :: tokens n rest
      | none =>
        match operators.find? fun op => op.toList.isPrefixOf (c :: rest) with
        | some op => .op op :: tokens n ((c :: rest).drop op.length)
        | none => [.bad]

/-- Steps that read tokens, and fail with what was expected. -/
abbrev Reading := StateT (List Token) (Except String)

/-- The operators between two numbers, the level that binds most closely first. -/
def levels : List (List (String × ArithmeticOp)) :=
  [[("*", .times), ("/", .over), ("%", .modulo)],
    [("+", .plus), ("-", .minus)],
    [("<<", .shiftLeft), (">>", .shiftRight)],
    [("<", .less), ("<=", .lessEqual), (">", .greater), (">=", .greaterEqual)],
    [("==", .equal), ("!=", .unequal)],
    [("&", .bitAnd)],
    [("^", .bitXor)],
    [("|", .bitOr)]]

/-- The operator of an assignment. -/
def assignment? (text : String) : Option (Option ArithmeticOp) :=
  if text = "=" then some none
  else match text.toList.getLast? with
    | some '=' =>
      ((levels.take 3 ++ levels.drop 5).flatten.lookup (String.ofList text.toList.dropLast)).map some
    | _ => none

/-- Takes an operator in front if there is one of some. -/
def takeOp {α : Type} (ops : List (String × α)) : Reading (Option α) := do
  match ← get with
  | .op text :: rest =>
    match ops.lookup text with
    | some op =>
      set rest
      return some op
    | none => return none
  | _ => return none

def expect (text : String) : Reading Unit := do
  if (← takeOp [(text, ())]).isNone then throw ("expecting '" ++ text ++ "'")

mutual

/-- Reads a number, a variable, or something in parentheses, after any signs. -/
def primary : (n : Nat) → Reading Arithmetic
  | 0 => throw "expecting primary"
  | n + 1 => do
    match ← get with
    | .number value :: rest =>
      set rest
      return .number value
    | .name name :: rest =>
      set rest
      return .param name
    | .op "(" :: rest =>
      set rest
      let inner ← expression n
      expect ")"
      return inner
    | .op "+" :: rest =>
      set rest
      primary n
    | .op "-" :: rest =>
      set rest
      return .negative (← primary n)
    | .op "!" :: rest =>
      set rest
      return .isZero (← primary n)
    | .op "~" :: rest =>
      set rest
      return .complement (← primary n)
    | _ => throw "expecting primary"
termination_by structural n => n

/-- Reads operands between operators of a level, the levels below it binding more closely. -/
def level : (n : Nat) → (below : List (List (String × ArithmeticOp))) → Reading Arithmetic
  | 0, _ => throw "expecting primary"
  | n + 1, [] => primary n
  | n + 1, ops :: below => do levelAfter n ops below (← level n below)
termination_by structural n => n

/-- Reads what follows the first operand of a level. -/
def levelAfter : (n : Nat) → List (String × ArithmeticOp) → List (List (String × ArithmeticOp)) →
    Arithmetic → Reading Arithmetic
  | 0, _, _, _ => throw "expecting primary"
  | n + 1, ops, below, first => do
    match ← takeOp ops with
    | some op => levelAfter n ops below (.binary op first (← level n below))
    | none => return first
termination_by structural n => n

/-- Reads operands that all have to be true. -/
def conjunction : (n : Nat) → Reading Arithmetic
  | 0 => throw "expecting primary"
  | n + 1 => do
    let first ← level n levels.reverse
    match ← takeOp [("&&", ())] with
    | some _ => return .both first (← conjunction n)
    | none => return first
termination_by structural n => n

/-- Reads operands of which one has to be true. -/
def disjunction : (n : Nat) → Reading Arithmetic
  | 0 => throw "expecting primary"
  | n + 1 => do
    let first ← conjunction n
    match ← takeOp [("||", ())] with
    | some _ => return .either first (← disjunction n)
    | none => return first
termination_by structural n => n

/-- Reads an expression. -/
def expression : (n : Nat) → Reading Arithmetic
  | 0 => throw "expecting primary"
  | n + 1 => do
    let before ← get
    match before with
    | .name name :: .op text :: rest =>
      match assignment? text with
      | some op =>
        set rest
        return .assign name op (← expression n)
      | none => conditional n
    | _ => conditional n
termination_by structural n => n

/-- Reads an expression that is no assignment. -/
def conditional : (n : Nat) → Reading Arithmetic
  | 0 => throw "expecting primary"
  | n + 1 => do
    let test ← disjunction n
    match ← takeOp [("?", ())] with
    | none => return test
    | some _ =>
      let yes ← expression n
      expect ":"
      return .choose test yes (← conditional n)
termination_by structural n => n

end

/-- Reads a whole expression. -/
def ofText (text : String) : Except String Arithmetic := do
  let all := tokens text.length.succ text.toList
  let (found, rest) ← (expression (20 * all.length + 40)).run all
  if rest.isEmpty then return found else throw "expecting EOF"

/-! ## Computing -/

/-- Computes an expression, given how to find out and set variables, and what to do when something is
divided by zero. -/
def compute {m : Type → Type} [Monad m] (value : String → m Int) (set : String → Int → m Unit)
    (divided : m Int) : Arithmetic → m Int
  | number n => return n
  | param name => value name
  | negative a => return wrap (-(← compute value set divided a))
  | isZero a => return ofBool ((← compute value set divided a) = 0)
  | complement a => return -(← compute value set divided a) - 1
  | binary op a b => do
    let x ← compute value set divided a
    let y ← compute value set divided b
    match result? op x y with
    | some result => return result
    | none => divided
  | both a b => do
    let x ← compute value set divided a
    if x = 0 then return 0
    return ofBool ((← compute value set divided b) ≠ 0)
  | either a b => do
    let x ← compute value set divided a
    if x ≠ 0 then return 1
    return ofBool ((← compute value set divided b) ≠ 0)
  | choose test yes no => do
    let x ← compute value set divided test
    if x ≠ 0 then compute value set divided yes else compute value set divided no
  | assign name op a => do
    let y ← compute value set divided a
    let result ← match op with
      | none => pure y
      | some op =>
        let x ← value name
        match result? op x y with
        | some result => pure result
        | none => divided
    set name result
    return result

end Arithmetic

end Rebuild.Shell
