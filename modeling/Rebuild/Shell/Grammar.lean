import Rebuild.Shell.Script

/-!
# Reading commands

From tokens to commands. A list of commands ends where a token comes that only closes something; each
kind of compound command then asks for the token that belongs to it. A script is read one complete
command at a time, so that what comes before a mistake still runs.

Reading descends at most a few levels for each character, and `readCommand` provides for that.
-/

namespace Rebuild.Shell

namespace Reading

/-- A redirection in the course of reading: its descriptor, and its mode or, for a here-document,
whether tabs are dropped. -/
abbrev Redirection := Option Nat × Option RedirectMode × Bool

/-- The keywords and operators that end a list of commands. -/
def endsList : Token → Bool
  | .keyword text =>
    ["do", "done", "elif", "else", "esac", "fi", "then", "\x7d"].contains text
  | .op .closeParen | .op .caseEnd | .endOfFile => true
  | _ => false

/-- The name and the value of a word that assigns a variable. -/
def assignment? : Word → Option (String × Word)
  | .plain text :: rest =>
    (splitAssignment? text).map fun (name, value) =>
      (name, if value = "" then rest else .plain value :: rest)
  | _ => none

/-- The word that a loop without words goes through. -/
def allParams : Word := [.param "@" .value true]

/-- Whether a name cannot be given to a function. -/
def isReserved (name : String) : Bool :=
  !isName name || ["break", "continue", "eval", "exec", "exit", "export", "readonly", "return",
    "set", "shift", "times", "trap", "unset"].contains name

mutual

/-- Reads a token. -/
def token (wanted : Wanted) : (n : Nat) → Reading Token
  | 0 => fail .unterminatedQuote
  | n + 1 => do readToken (script n) wanted (← steps)
termination_by structural n => n

/-- Reads a list of commands between parentheses, which may be empty, up to the token after it. -/
def script : (n : Nat) → Reading Command
  | 0 => fail .unterminatedQuote
  | n + 1 => list n true true .nothing
termination_by structural n => n

/-- Reads a list of commands after `before`. If `maySkip` holds it goes on over line ends, and it may
be empty if `mayEnd` holds. -/
def list : (n : Nat) → (maySkip mayEnd : Bool) → (before : Command) → Reading Command
  | 0, _, _, _ => fail .unterminatedQuote
  | n + 1, maySkip, mayEnd, before => do
    let first ← token ⟨maySkip, true, true⟩ n
    match first with
    | .op .newline => return before
    | .endOfFile =>
      putBack
      return before
    | _ =>
      putBack
      if maySkip && mayEnd && endsList first then return before
      let line := (← get).line
      let command ← andOr n
      let after ← token asIs n
      let command := if after.isOp .background then .background line command else command
      let all := if before.isNothing then command else .sequence before command
      match after with
      | .op .newline | .endOfFile =>
        putBack
        list n maySkip true all
      | .op .background | .op .semicolon => list n maySkip true all
      | _ =>
        if !maySkip then unexpected none
        putBack
        return all
termination_by structural n => n

/-- Reads pipelines of which each depends on the outcome of those before. -/
def andOr : (n : Nat) → Reading Command
  | 0 => fail .unterminatedQuote
  | n + 1 => do andOrAfter n (← pipeline n)
termination_by structural n => n

/-- Reads what follows a pipeline. -/
def andOrAfter : (n : Nat) → (first : Command) → Reading Command
  | 0, _ => fail .unterminatedQuote
  | n + 1, first => do
    match ← token asIs n with
    | .op .andThen => andOrAfter n (.both first (← pipelineWith anywhere n))
    | .op .orElse => andOrAfter n (.either first (← pipelineWith anywhere n))
    | _ =>
      putBack
      return first
termination_by structural n => n

/-- Reads a pipeline whose first token was put back. -/
def pipeline : (n : Nat) → Reading Command
  | 0 => fail .unterminatedQuote
  | n + 1 => pipelineWith inLine n
termination_by structural n => n

/-- Reads a pipeline. -/
def pipelineWith (wanted : Wanted) : (n : Nat) → Reading Command
  | 0 => fail .unterminatedQuote
  | n + 1 => do
    let first ← token wanted n
    let isNegated := first.isKeyword "!"
    let first ← if isNegated then command inLine n else do
      putBack
      command asIs n
    let others ← pipeParts n
    let all := if others.isEmpty then first else .pipeline (first :: others)
    return if isNegated then .negated all else all
termination_by structural n => n

/-- Reads the other commands of a pipeline. -/
def pipeParts : (n : Nat) → Reading (List Command)
  | 0 => fail .unterminatedQuote
  | n + 1 => do
    if (← token asIs n).isOp .pipe then
      let next ← command anywhere n
      return next :: (← pipeParts n)
    putBack
    return []
termination_by structural n => n

/-- Reads a command. -/
def command (wanted : Wanted) : (n : Nat) → Reading Command
  | 0 => fail .unterminatedQuote
  | n + 1 => do
    let line := (← get).line
    match ← token wanted n with
    | .keyword "if" =>
      let body ← branch n
      closing n (.keyword "fi") line body
    | .keyword "while" =>
      let body ← loop n true
      closing n (.keyword "done") line body
    | .keyword "until" =>
      let body ← loop n false
      closing n (.keyword "done") line body
    | .keyword "for" =>
      let body ← each n
      closing n (.keyword "done") line body
    | .keyword "case" =>
      let body ← choice n
      redirected n line body
    | .keyword "\x7b" =>
      let body ← list n true false .nothing
      closing n (.keyword "\x7d") line body
    | .op .openParen =>
      let body ← list n true false .nothing
      closing n (.op .closeParen) line (.subshell line body)
    | .word _ | .redirect _ _ | .document _ _ =>
      putBack
      simple n line true [] [] []
    | _ => unexpected none
termination_by structural n => n

/-- Reads the token that closes a compound command, and its redirections. -/
def closing : (n : Nat) → Token → (line : Nat) → Command → Reading Command
  | 0, _, _, _ => fail .unterminatedQuote
  | n + 1, wanted, line, body => do
    let found ← token asIs n
    if found.describe ≠ wanted.describe then unexpected (some wanted.describe)
    redirected n line body
termination_by structural n => n

/-- Reads the redirections after a compound command. -/
def redirected : (n : Nat) → (line : Nat) → Command → Reading Command
  | 0, _, _ => fail .unterminatedQuote
  | n + 1, line, body => do
    let redirects ← redirections n
    if redirects.isEmpty then return body
    match body with
    | .subshell line inner => return .subshell line (.redirected line inner redirects)
    | _ => return .redirected line body redirects
termination_by structural n => n

/-- Reads redirections. -/
def redirections : (n : Nat) → Reading (List Redirect)
  | 0 => fail .unterminatedQuote
  | n + 1 => do
    match ← token inLine n with
    | .redirect descriptor mode =>
      let redirect ← redirection n (descriptor, some mode, false)
      return redirect :: (← redirections n)
    | .document descriptor dropTabs =>
      let redirect ← redirection n (descriptor, none, dropTabs)
      return redirect :: (← redirections n)
    | _ =>
      putBack
      return []
termination_by structural n => n

/-- Reads the word of a redirection. -/
def redirection : (n : Nat) → Redirection → Reading Redirect
  | 0, _ => fail .unterminatedQuote
  | n + 1, (descriptor, mode, dropTabs) => do
    match ← token asIs n with
    | .word word =>
      match mode with
      | some mode => return .mk (descriptor.getD 1) mode word
      | none =>
        return .mk (descriptor.getD 0) .document (← readDocument (script n) word dropTabs)
    | _ => unexpected none
termination_by structural n => n

/-- Reads the rest of a command made of assignments, words and redirections, each kept with the last
one first. Aliases are replaced up to the first word. -/
def simple : (n : Nat) → (line : Nat) → (isFirst : Bool) → List (String × Word) → List Word →
    List Redirect → Reading Command
  | 0, _, _, _, _, _ => fail .unterminatedQuote
  | n + 1, line, isFirst, assignments, words, redirects => do
    match ← token ⟨false, false, isFirst⟩ n with
    | .word word =>
      match if isFirst then assignment? word else none with
      | some assignment => simple n line true (assignment :: assignments) words redirects
      | none => simple n line false assignments (word :: words) redirects
    | .redirect descriptor mode =>
      let redirect ← redirection n (descriptor, some mode, false)
      simple n line isFirst assignments words (redirect :: redirects)
    | .document descriptor dropTabs =>
      let redirect ← redirection n (descriptor, none, dropTabs)
      simple n line isFirst assignments words (redirect :: redirects)
    | found =>
      match found, words, assignments, redirects with
      | .op .openParen, [name], [], [] => function n line name
      | _, _, _, _ =>
        putBack
        return .simple line assignments.reverse words.reverse redirects.reverse
termination_by structural n => n

/-- Reads a function after the parenthesis that follows its name. -/
def function : (n : Nat) → (line : Nat) → Word → Reading Command
  | 0, _, _ => fail .unterminatedQuote
  | n + 1, line, word => do
    if !(← token asIs n).isOp .closeParen then
      unexpected (some Operator.closeParen.describe)
    match word.plainText? with
    | some name =>
      if isReserved name then fail .badFunctionName
      return .function line name (← command anywhere n)
    | none => fail .badFunctionName
termination_by structural n => n

/-- Reads what follows `if` or `elif`. -/
def branch : (n : Nat) → Reading Command
  | 0 => fail .unterminatedQuote
  | n + 1 => do
    let test ← list n true false .nothing
    if !(← token asIs n).isKeyword "then" then unexpected (some "\"then\"")
    let yes ← list n true false .nothing
    match ← token asIs n with
    | .keyword "elif" => return .branch test yes (← branch n)
    | .keyword "else" => return .branch test yes (← list n true false .nothing)
    | _ =>
      putBack
      return .branch test yes .nothing
termination_by structural n => n

/-- Reads what follows `while` or `until`. -/
def loop : (n : Nat) → (wanted : Bool) → Reading Command
  | 0, _ => fail .unterminatedQuote
  | n + 1, wanted => do
    let test ← list n true false .nothing
    if !(← token asIs n).isKeyword "do" then unexpected (some "\"do\"")
    return .loop wanted test (← list n true false .nothing)
termination_by structural n => n

/-- Reads what follows `for`. -/
def each : (n : Nat) → Reading Command
  | 0 => fail .unterminatedQuote
  | n + 1 => do
    let line := (← get).line
    let name ← match ← token asIs n with
      | .word [.plain name] => if isName name then pure name else fail .badLoopVariable
      | _ => fail .badLoopVariable
    let items ← match ← token anywhere n with
      | .keyword "in" =>
        let items ← words n
        if !((← get).last.isOp .newline || (← get).last.isOp .semicolon) then unexpected none
        pure items
      | .op .semicolon => pure [allParams]
      | _ =>
        putBack
        pure [allParams]
    if !(← token anywhere n).isKeyword "do" then unexpected (some "\"do\"")
    return .each line name items (← list n true false .nothing)
termination_by structural n => n

/-- Reads words up to another token. -/
def words : (n : Nat) → Reading (List Word)
  | 0 => fail .unterminatedQuote
  | n + 1 => do
    match ← token asIs n with
    | .word word => return word :: (← words n)
    | _ => return []
termination_by structural n => n

/-- Reads what follows `case`. -/
def choice : (n : Nat) → Reading Command
  | 0 => fail .unterminatedQuote
  | n + 1 => do
    let line := (← get).line
    match ← token asIs n with
    | .word subject =>
      if !(← token anywhere n).isKeyword "in" then unexpected (some "\"in\"")
      return .choice line subject (← cases n)
    | _ => unexpected (some "word")
termination_by structural n => n

/-- Reads the cases up to `esac`. -/
def cases : (n : Nat) → Reading (List (List Word × Command))
  | 0 => fail .unterminatedQuote
  | n + 1 => do
    let first ← token ⟨true, true, false⟩ n
    if first.isKeyword "esac" then return []
    let first ← if first.isOp .openParen then token asIs n else pure first
    let patterns ← patterns n first
    let body ← list n true true .nothing
    match ← token ⟨true, true, false⟩ n with
    | .keyword "esac" => return [(patterns, body)]
    | .op .caseEnd => return (patterns, body) :: (← cases n)
    | _ => unexpected (some "\";;\"")
termination_by structural n => n

/-- Reads the patterns of a case, the first of which was read. -/
def patterns : (n : Nat) → (first : Token) → Reading (List Word)
  | 0, _ => fail .unterminatedQuote
  | n + 1, first => do
    let word := match first with
      | .word word => word
      | .keyword text => [.plain text]
      | _ => []
    match ← token asIs n with
    | .op .pipe => return word :: (← patterns n (← token asIs n))
    | .op .closeParen => return [word]
    | _ => unexpected (some Operator.closeParen.describe)
termination_by structural n => n

end

end Reading

/-- What was read of a script: a command and how to read on, or nothing because the script is over.
-/
structure ReadCommand where
  command : Command
  isOver : Bool
  reader : Reader

/-- A script that starts on a line. -/
def Reader.start (text : String) (aliases : List (String × String)) : Reader :=
  ⟨text.toList, 1, [], none, .endOfFile, aliases, []⟩

/-- Reads the next complete command of a script. -/
def readCommand (r : Reader) : Except (Nat × ScriptFault) ReadCommand := do
  let n := 16 * r.rest.length + 64
  let (command, r) ← (Reading.list n false false .nothing).run { r with pushed := none }
  let isAtEnd := match r.pushed with
    | some .endOfFile => true
    | _ => false
  return ⟨command, command.isNothing && isAtEnd, { r with pushed := none }⟩

/-- Whether nothing is left to read but blanks, line ends and comments. -/
def Reader.isAtEnd (r : Reader) : Bool :=
  r.rest.all fun c => c = ' ' || c = '\t' || c = '\n'

end Rebuild.Shell
