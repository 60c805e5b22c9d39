/-!
# Commands of the shell

The shell language as it is understood after reading: words made of pieces, and commands made of
words. What a word stands for is found out only when its command runs. Texts have one character for
each byte.
-/

namespace Rebuild.Shell

/-- What a redirection does with its word. -/
inductive RedirectMode where
  | read
  | write
  | overwrite
  | append
  | readWrite
  | duplicate
  | document
deriving DecidableEq, Repr

/-- From which end a pattern takes text away. -/
inductive TrimSide where
  | front
  | back
deriving DecidableEq, Repr

mutual

/-- A piece of a word: text in which pattern characters count, quoted text, what a parameter comes
to, what a script prints, or the value of an arithmetic expression. What comes from the last three
outside quotes is cut into fields. -/
inductive Piece where
  | plain (text : String)
  | quoted (text : String)
  | param (name : String) (use : ParamUse) (inQuotes : Bool)
  | output (script : Command) (inQuotes : Bool)
  | arithmetic (expression : List Piece) (inQuotes : Bool)

/-- What is made of a parameter. A word can stand in for a parameter that is not set, or with `nullToo`
also for one that is empty. -/
inductive ParamUse where
  | value
  | length
  | orElse (nullToo : Bool) (word : List Piece)
  | orAssign (nullToo : Bool) (word : List Piece)
  | orFail (nullToo : Bool) (word : List Piece)
  | ifSet (nullToo : Bool) (word : List Piece)
  | trim (side : TrimSide) (longest : Bool) (pattern : List Piece)
  | malformed

/-- A redirection of a descriptor. -/
inductive Redirect where
  | mk (descriptor : Nat) (mode : RedirectMode) (target : List Piece)

/-- A command, with the line on which it stands where messages tell it. -/
inductive Command where
  | nothing
  | simple (line : Nat) (assignments : List (String × List Piece)) (words : List (List Piece))
      (redirects : List Redirect)
  | redirected (line : Nat) (body : Command) (redirects : List Redirect)
  | subshell (line : Nat) (body : Command)
  | background (line : Nat) (body : Command)
  | sequence (first second : Command)
  | both (first second : Command)
  | either (first second : Command)
  | negated (body : Command)
  | pipeline (commands : List Command)
  | branch (test yes no : Command)
  /-- Repeats the body as long as the test has the wanted outcome. -/
  | loop (wanted : Bool) (test body : Command)
  | each (line : Nat) (name : String) (items : List (List Piece)) (body : Command)
  | choice (line : Nat) (subject : List Piece) (cases : List (List (List Piece) × Command))
  | function (line : Nat) (name : String) (body : Command)

end

abbrev Word := List Piece

instance : Inhabited Piece := ⟨.plain ""⟩
instance : Inhabited Command := ⟨.nothing⟩

/-- Whether there is nothing to run. -/
def Command.isNothing : Command → Bool
  | .nothing => true
  | _ => false

/-- The text of a word without quotes and values. -/
def Word.plainText? : Word → Option String
  | [] => some ""
  | [.plain text] => some text
  | _ => none

/-! ## Names -/

def isNameStart (c : Char) : Bool := c.isAlpha || c = '_'

def isNameChar (c : Char) : Bool := c.isAlphanum || c = '_'

/-- Whether a text can name a variable. -/
def isName (text : String) : Bool :=
  match text.toList with
  | c :: rest => isNameStart c && rest.all isNameChar
  | [] => false

/-- Cuts a text at its first equals sign, if a name stands in front of it. -/
def splitAssignment? (text : String) : Option (String × String) :=
  let name := text.toList.takeWhile (· ≠ '=')
  match text.toList.drop name.length with
  | _ :: value =>
    if isName (String.ofList name) then some (String.ofList name, String.ofList value) else none
  | [] => none

/-! ## What cannot be read -/

/-- Why a script cannot be read. -/
inductive ScriptFault where
  | unterminatedQuote
  | unterminatedScript
  | unterminatedBrace
  | unterminatedArithmetic
  | badLoopVariable
  | badFunctionName
  | badDescriptor
  | unexpected (found : String) (expected : Option String)
deriving DecidableEq, Repr

/-- The fault in words. -/
def ScriptFault.message : ScriptFault → String
  | .unterminatedQuote => "Unterminated quoted string"
  | .unterminatedScript => "EOF in backquote substitution"
  | .unterminatedBrace => "Missing '\x7d'"
  | .unterminatedArithmetic => "Missing '))'"
  | .badLoopVariable => "Bad for loop variable"
  | .badFunctionName => "Bad function name"
  | .badDescriptor => "Bad fd number"
  | .unexpected found none => found ++ " unexpected"
  | .unexpected found (some expected) => found ++ " unexpected (expecting " ++ expected ++ ")"

end Rebuild.Shell
