import Rebuild.Shell.Arithmetic

/-!
# Conditions

What `test` makes of its words. Whether a word is an operator depends on where it stands: with three
words a binary operator in the middle counts before anything else, and a unary operator is just a
word if nothing follows it, or if a binary operator does.
-/

namespace Rebuild.Shell.Condition

/-- What conditions ask about files. -/
structure Facts where
  /-- Whether a path leads to a file with the property that a letter names. -/
  holds : (property : Char) → (path : String) → Bool
  /-- Whether one path leads to a newer file than another, or to the same. -/
  isNewer : String → String → Bool
  isSame : String → String → Bool

/-- The operators in front of one word. -/
def isUnary (word : String) : Bool :=
  match word.toList with
  | ['-', c] => "rwxefdcbpugkstznhLOGS".toList.contains c
  | _ => false

/-- The operators between two words. -/
def isBinary (word : String) : Bool :=
  ["=", "!=", "<", ">", "-eq", "-ne", "-ge", "-gt", "-le", "-lt", "-nt", "-ot", "-ef"].contains word

/-- What a word is where it stands. -/
inductive Kind where
  | missing
  | operand
  | unary
  | binary
  | not
  | and
  | or
  | openParen
  | closeParen
deriving DecidableEq, Repr

/-- What the first of some words is. -/
def kindOf (words : List String) : Kind :=
  match words with
  | [] => .missing
  | word :: rest =>
    if isUnary word then
      match rest with
      | [] => .operand
      | [_] => .unary
      | next :: _ => if isBinary next then .operand else .unary
    else if isBinary word then .binary
    else match word with
      | "!" => .not
      | "-a" => .and
      | "-o" => .or
      | "(" => if rest.isEmpty then .operand else .openParen
      | ")" => .closeParen
      | _ => .operand

/-- The number that a word writes. -/
def number (word : String) : Except String Int :=
  match Arithmetic.integer? word with
  | some n => .ok n
  | none => .error ("Illegal number: " ++ word)

/-- The outcome of a comparison. -/
def compare (facts : Facts) (left operator right : String) : Except String Bool := do
  let numbers (holds : Int → Int → Bool) : Except String Bool := do
    return holds (← number left) (← number right)
  match operator with
  | "=" => return left = right
  | "!=" => return left ≠ right
  | "<" => return left < right
  | ">" => return right < left
  | "-eq" => numbers (· = ·)
  | "-ne" => numbers (· ≠ ·)
  | "-ge" => numbers (· ≥ ·)
  | "-gt" => numbers (· > ·)
  | "-le" => numbers (· ≤ ·)
  | "-lt" => numbers (· < ·)
  | "-nt" => return facts.isNewer left right
  | "-ot" => return facts.isNewer right left
  | _ => return facts.isSame left right

/-- The outcome of an operator in front of a word. -/
def ask (facts : Facts) (operator word : String) : Except String Bool := do
  match operator with
  | "-z" => return word = ""
  | "-n" => return word ≠ ""
  | "-t" =>
    let _ ← number word
    return false
  | _ => return facts.holds (operator.toList.getLastD 'e') word

mutual

/-- Reads alternatives, of which one has to hold: the outcome, and the words from the last one that
was read on. `first` is what the first word is. -/
def either (facts : Facts) : (n : Nat) → (first : Kind) → (before : Bool) → List String →
    Except String (Bool × List String)
  | 0, _, before, words => return (before, words)
  | n + 1, first, before, words => do
    let (found, rest) ← both facts n first true words
    if kindOf rest.tail = .or then
      either facts n (kindOf (rest.drop 2)) (before || found) (rest.drop 2)
    else return (before || found, rest)
termination_by structural n => n

/-- Reads conditions that all have to hold. -/
def both (facts : Facts) : (n : Nat) → (first : Kind) → (before : Bool) → List String →
    Except String (Bool × List String)
  | 0, _, before, words => return (before, words)
  | n + 1, first, before, words => do
    let (found, rest) ← negation facts n first words
    if kindOf rest.tail = .and then
      both facts n (kindOf (rest.drop 2)) (before && found) (rest.drop 2)
    else return (before && found, rest)
termination_by structural n => n

/-- Reads a condition after any exclamation marks. -/
def negation (facts : Facts) : (n : Nat) → (first : Kind) → List String →
    Except String (Bool × List String)
  | 0, _, words => return (false, words)
  | n + 1, first, words => do
    if first ≠ .not then primary facts n first words
    else
      let next := kindOf words.tail
      let (found, rest) ← negation facts n next (if next = .missing then words else words.tail)
      return (!found, rest)
termination_by structural n => n

/-- Reads a condition. -/
def primary (facts : Facts) : (n : Nat) → (first : Kind) → List String →
    Except String (Bool × List String)
  | 0, _, words => return (false, words)
  | n + 1, first, words => do
    match first with
    | .missing => return (false, words)
    | .openParen =>
      let inner := kindOf words.tail
      if inner = .closeParen then return (false, words.tail)
      let (found, rest) ← either facts n inner false words.tail
      if kindOf rest.tail ≠ .closeParen then throw "closing paren expected"
      return (found, rest.tail)
    | .unary =>
      match words with
      | operator :: word :: rest => return (← ask facts operator word, word :: rest)
      | _ => throw (words.headD "" ++ ": argument expected")
    | _ =>
      if kindOf words.tail = .binary then
        match words with
        | left :: operator :: right :: rest =>
          return (← compare facts left operator right, right :: rest)
        | _ => throw ((words[1]?).getD "" ++ ": argument expected")
      else return (words.headD "" ≠ "", words)
termination_by structural n => n

end

/-- Whether the condition holds that some words write, in at most `n` steps. -/
def holdsWithin (facts : Facts) : (n : Nat) → List String → Except String Bool
  | 0, _ | _, [] => return false
  | n + 1, words => do
    let evaluate (first : Kind) (words : List String) : Except String Bool := do
      let (found, rest) ← either facts (8 * words.length + 8) first false words
      match rest with
      | word :: _ :: _ => throw (word ++ ": unexpected operator")
      | _ => return found
    match words with
    | [_, operator, _] => if isBinary operator then return ← evaluate .operand words
    | _ => pure ()
    if words.length = 3 || words.length = 4 then
      if words.head? = some "(" && words.getLast? = some ")" then
        let inner := words.tail.dropLast
        return ← evaluate (kindOf inner) inner
      if words.head? = some "!" then return !(← holdsWithin facts n words.tail)
    evaluate (kindOf words) words

/-- Whether the condition holds that some words write. -/
def holds (facts : Facts) (words : List String) : Except String Bool :=
  holdsWithin facts (words.length + 1) words

end Rebuild.Shell.Condition
