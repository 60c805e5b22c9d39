import Rebuild.Text.Regex

/-!
# Record programs

A record program has rules: patterns that select records, and what is done for the records that they
select. What is computed in it are numbers and texts, and arrays of them.
-/

namespace Rebuild.Shell.Awk

/-- Operators on numbers. -/
inductive Arith where
  | add | subtract | multiply | divide | modulo | power
deriving DecidableEq, Repr

/-- Ways to compare two values. -/
inductive Relation where
  | less | lessEqual | equal | notEqual | greaterEqual | greater
deriving DecidableEq, Repr

/-- Whether two values that compare in some way are in a relation. -/
def Relation.holds : Relation → Ordering → Bool
  | less, o => o = .lt
  | lessEqual, o => o ≠ .gt
  | equal, o => o = .eq
  | notEqual, o => o ≠ .eq
  | greaterEqual, o => o ≠ .lt
  | greater, o => o = .gt

/-- An expression. A regular expression by itself tells whether it matches the record, and `read` takes a
record from the main input, from a file or from what a command line prints. -/
inductive Expr where
  | number (x : Float)
  | text (s : String)
  | regex (r : Regex)
  | variable (name : String)
  | element (array : String) (indices : List Expr)
  | field (index : Expr)
  | group (e : Expr)
  | assign (target : Expr) (op : Option Arith) (value : Expr)
  | step (target : Expr) (isUp isBefore : Bool)
  | negate (e : Expr)
  | plus (e : Expr)
  | not (e : Expr)
  | arith (op : Arith) (a b : Expr)
  | join (a b : Expr)
  | compare (r : Relation) (a b : Expr)
  | fits (isNegated : Bool) (a b : Expr)
  | both (a b : Expr)
  | either (a b : Expr)
  | choose (test a b : Expr)
  | isIn (indices : List Expr) (array : String)
  | call (name : String) (args : List Expr)
  | builtin (name : String) (args : List Expr)
  | read (target : Option Expr)
  | readFile (target : Option Expr) (path : Expr)
  | readCommand (target : Option Expr) (words : Expr)
deriving Repr

instance : Inhabited Expr := ⟨.number 0⟩

/-- Where printed text goes: to the output, to a file, to the end of a file, or to the input of a command
line. -/
inductive Target where
  | output
  | file (path : Expr)
  | append (path : Expr)
  | command (words : Expr)
deriving Repr

/-- What is done. -/
inductive Statement where
  | expr (e : Expr)
  | print (args : List Expr) (target : Target)
  | printf (args : List Expr) (target : Target)
  | block (body : List Statement)
  | choose (test : Expr) (yes no : Statement)
  | whileDo (test : Expr) (body : Statement)
  | doWhile (body : Statement) (test : Expr)
  | forDo (start : Statement) (test : Option Expr) (step body : Statement)
  | forEach (name array : String) (body : Statement)
  | leaveLoop
  | nextRound
  | nextRecord
  | nextFile
  | exit (status : Option Expr)
  | return (value : Option Expr)
  | delete (array : String) (indices : List Expr)
  | clear (array : String)
deriving Repr

instance : Inhabited Statement := ⟨.block []⟩

/-- Which records a rule selects: all, those for which a test holds, or the ranges between two tests. -/
inductive RulePattern where
  | always
  | test (e : Expr)
  | range (first last : Expr)
deriving Repr

/-- A rule. Without a body the record is printed. -/
structure Rule where
  pattern : RulePattern
  body : Option Statement
deriving Repr

/-- A function: its parameters, and which of them are arrays. -/
structure Function where
  params : List (String × Bool)
  body : Statement
deriving Repr

/-- A program: what is done before the records, for each of them and after them, its functions, and the
names of its arrays. -/
structure Program where
  first : List Statement
  rules : List Rule
  last : List Statement
  functions : List (String × Function)
  arrays : List String
deriving Repr

end Rebuild.Shell.Awk
