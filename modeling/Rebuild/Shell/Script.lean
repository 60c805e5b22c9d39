import Rebuild.Shell.Command

/-!
# Reading words and tokens

A script is read from the front. Blanks set tokens apart, a comment reaches from a number sign at the
start of a token to the end of the line, and a backslash at the end of a line joins it to the next
one. The text of a here-document is taken out of the script as soon as its delimiter was read, so
that reading goes on after it.

A script can stand inside a word, and so reading words needs a way to read commands, which is passed
along as `nested`.
-/

namespace Rebuild.Shell

/-- The operators between commands. -/
inductive Operator where
  | andThen
  | orElse
  | semicolon
  | caseEnd
  | background
  | pipe
  | openParen
  | closeParen
  | newline
deriving DecidableEq, Repr

/-- The operator as messages name it. -/
def Operator.describe : Operator → String
  | .andThen => "\"&&\""
  | .orElse => "\"||\""
  | .semicolon => "\";\""
  | .caseEnd => "\";;\""
  | .background => "\"&\""
  | .pipe => "\"|\""
  | .openParen => "\"(\""
  | .closeParen => "\")\""
  | .newline => "newline"

/-- A token of a script. -/
inductive Token where
  | word (word : Word)
  | keyword (text : String)
  | redirect (descriptor : Option Nat) (mode : RedirectMode)
  /-- The beginning of a here-document, and whether tabs in front of its lines are dropped. -/
  | document (descriptor : Option Nat) (dropTabs : Bool)
  | op (operator : Operator)
  | endOfFile

namespace Token

/-- The token as messages name it. -/
def describe : Token → String
  | word _ => "word"
  | keyword text => "\"" ++ text ++ "\""
  | redirect _ _ | document _ _ => "redirection"
  | op operator => operator.describe
  | endOfFile => "end of file"

def isOp (operator : Operator) : Token → Bool
  | op found => found = operator
  | _ => false

def isKeyword (text : String) : Token → Bool
  | keyword found => found = text
  | _ => false

end Token

/-- How far a script was read. -/
structure Reader where
  rest : List Char
  line : Nat
  /-- Lines that were taken out, by the length of the text after them. -/
  jumps : List (Nat × Nat)
  /-- A token that was read and put back. -/
  pushed : Option Token
  /-- The token that was read last. -/
  last : Token
  aliases : List (String × String)
  /-- Aliases being read, by the length of the text after them. -/
  expanding : List (String × Nat)

/-- Steps that read a script, and fail with the line on which they stopped. -/
abbrev Reading := StateT Reader (Except (Nat × ScriptFault))

namespace Reading

def fail {α : Type} (fault : ScriptFault) : Reading α := do
  throw ((← get).line, fault)

/-- Passes over a character. -/
def advance : Reading Unit :=
  modify fun r => match r.rest with
    | [] => r
    | c :: rest =>
      if c ≠ '\n' then { r with rest := rest }
      else
        let jump := if r.jumps.isEmpty then 0 else (r.jumps.lookup rest.length).getD 0
        { r with rest := rest, line := r.line + 1 + jump }

/-- The text without the joined line ends in front, and how many there were. -/
def dropJoined : List Char → List Char × Nat
  | '\\' :: '\n' :: rest => ((dropJoined rest).1, (dropJoined rest).2 + 1)
  | text => (text, 0)

/-- The next character, after joining lines. -/
def peek : Reading (Option Char) := do
  let r ← get
  match r.rest with
  | '\\' :: '\n' :: _ =>
    let (rest, count) := dropJoined r.rest
    set { r with rest := rest, line := r.line + count }
    return rest.head?
  | text => return text.head?

/-- Passes over a character if it is the next one. -/
def take (c : Char) : Reading Bool := do
  if (← peek) = some c then
    advance
    return true
  return false

/-- Passes over a number of characters, one by one. -/
def advanceBy : Nat → Reading Unit
  | 0 => return ()
  | n + 1 => do
    advance
    advanceBy n

/-- Reads characters as long as they fit. -/
def takeWhile (fits : Char → Bool) : Reading String := do
  let _ ← peek
  let found := (← get).rest.takeWhile fits
  advanceBy found.length
  return String.ofList found

/-! ## Words -/

/-- Where the text being read stands: outside quotes, between braces, which may stand in quotes,
between double quotes, in an arithmetic expression, or in a here-document. -/
inductive Quoting where
  | bare
  | braces (quoted : Bool)
  | double
  | arithmetic
  | document
deriving DecidableEq, Repr

namespace Quoting

/-- Whether characters other than the dollar sign and its like stand for themselves. -/
def isQuoted : Quoting → Bool
  | bare | braces false => false
  | _ => true

/-- Whether a backslash takes away the meaning of a character. -/
def escapes (q : Quoting) (c : Char) : Bool :=
  !q.isQuoted || c = '\\' || c = '\x60' || c = '$' || (c = '"' && q ≠ document) ||
    (c = '\x7d' && q = braces true)

/-- Adds a character to the pieces read so far, the last one first. -/
def push (q : Quoting) (c : Char) (before : List Piece) : List Piece :=
  if q.isQuoted && q ≠ arithmetic then
    match before with
    | .quoted text :: rest => .quoted (text.push c) :: rest
    | _ => .quoted (String.singleton c) :: before
  else
    match before with
    | .plain text :: rest => .plain (text.push c) :: rest
    | _ => .plain (String.singleton c) :: before

end Quoting

/-- A character that ends a word. -/
def endsWord (c : Char) : Bool :=
  [' ', '\t', '\n', ';', '&', '|', '<', '>', '(', ')'].contains c

/-- A character that is the name of a parameter all by itself. -/
def isSpecialParam (c : Char) : Bool :=
  c.isDigit || ['?', '$', '#', '@', '*', '!', '-'].contains c

/-- Reads the text up to a single quotation mark. -/
def singleQuoted : Reading String := do
  let text := (← get).rest
  let found := text.takeWhile (· ≠ '\'')
  advanceBy found.length
  if found.length = text.length then fail .unterminatedQuote
  advance
  return String.ofList found

/-- The script up to a grave accent, and the text after that, if there is one. -/
def splitGrave (inQuotes : Bool) (script : List Char) : List Char → Option (List Char × List Char)
  | [] => none
  | '\x60' :: rest => some (script.reverse, rest)
  | '\\' :: c :: rest =>
    if c = '\n' then splitGrave inQuotes script rest
    else if c = '\x60' || c = '\\' || c = '$' || (inQuotes && c = '"') then
      splitGrave inQuotes (c :: script) rest
    else splitGrave inQuotes (c :: '\\' :: script) rest
  | c :: rest => splitGrave inQuotes (c :: script) rest

/-- Reads something else, which stands on a line, and then goes on where reading was. -/
def within {α : Type} (line : Nat) (text : List Char) (act : Reading α) : Reading α := do
  let r ← get
  set { r with rest := text, line := line, jumps := [], pushed := none }
  let found ← act
  set r
  return found

/-- Reads a script between grave accents, after the first one. -/
def grave (nested : Reading Command) (inQuotes : Bool) : Reading Piece := do
  let r ← get
  match splitGrave inQuotes [] r.rest with
  | none =>
    advanceBy r.rest.length
    fail .unterminatedScript
  | some (script, rest) =>
    let command ← within r.line script nested
    advanceBy (r.rest.length - rest.length)
    return .output command inQuotes

/-- Reads a script up to its closing parenthesis. -/
def parenthesized (nested : Reading Command) (inQuotes : Bool) : Reading Piece := do
  let r ← get
  set { r with pushed := none }
  let command ← nested
  let after ← get
  set { after with pushed := r.pushed, last := r.last }
  match after.pushed with
  | some (.op .closeParen) => return .output command inQuotes
  | found =>
    fail (.unexpected ((found.getD .endOfFile).describe) (some Operator.closeParen.describe))

/-- The name of a parameter between braces, whether its length is meant, and whether the name is
acceptable. -/
def bracedName : Reading (String × Bool × Bool) := do
  match ← peek with
  | none => return ("", false, false)
  | some c =>
    if isNameStart c then return (← takeWhile isNameChar, false, true)
    if c.isDigit then return (← takeWhile Char.isDigit, false, true)
    if c = '\x7d' then return ("", false, false)
    advance
    if c ≠ '#' then return (String.singleton c, false, isSpecialParam c)
    match ← peek with
    | none => return ("#", false, true)
    | some d =>
      if isNameStart d then return (← takeWhile isNameChar, true, true)
      if d.isDigit then return (← takeWhile Char.isDigit, true, true)
      match (← get).rest with
      | _ :: '\x7d' :: _ =>
        if d = '\x7d' || !isSpecialParam d then return ("#", false, true)
        advance
        return (String.singleton d, true, true)
      | _ => return ("#", false, true)

/-- The way to use a parameter that an operator asks for, given its word, and whether the word is a
pattern. -/
def bracedUse : Reading (Option ((Word → ParamUse) × Bool)) := do
  let nullToo ← take ':'
  match ← peek with
  | some '-' => advance; return some (.orElse nullToo, false)
  | some '=' => advance; return some (.orAssign nullToo, false)
  | some '?' => advance; return some (.orFail nullToo, false)
  | some '+' => advance; return some (.ifSet nullToo, false)
  | some '\x7d' => return some (fun _ => .value, false)
  | some c =>
    if nullToo then return none
    if c = '#' || c = '%' then
      advance
      let longest ← take c
      return some (.trim (if c = '#' then .front else .back) longest, true)
    return none
  | none => return none

/-- Reads pieces of a word in at most `n` steps, up to what ends them. `depth` parentheses are open
in an arithmetic expression, and `before` has the pieces read so far, the last one first. -/
def pieces (nested : Reading Command) : (n : Nat) → (q : Quoting) → (depth : Nat) →
    (before : List Piece) → Reading Word
  | 0, _, _, _ => fail .unterminatedQuote
  | n + 1, q, depth, before => do
    match ← peek with
    | none =>
      match q with
      | .bare | .document => return before.reverse
      | .double | .braces true => fail .unterminatedQuote
      | .braces false => fail .unterminatedBrace
      | .arithmetic => fail .unterminatedArithmetic
    | some '\\' =>
      advance
      match (← get).rest.head? with
      | none => pieces nested n q depth (Quoting.double.push '\\' before)
      | some c =>
        advance
        let before := if q.escapes c then before else Quoting.double.push '\\' before
        pieces nested n q depth (Quoting.double.push c before)
    | some '$' =>
      advance
      let inQuotes := q.isQuoted
      match ← peek with
      | some '(' =>
        advance
        if ← take '(' then
          let expression ← pieces nested n .arithmetic 0 []
          pieces nested n q depth (.arithmetic expression inQuotes :: before)
        else pieces nested n q depth ((← parenthesized nested inQuotes) :: before)
      | some '\x7b' =>
        advance
        let (name, wantsLength, isGood) ← bracedName
        let use? ← if wantsLength || !isGood then pure none else bracedUse
        let isPattern := use?.any (·.2)
        let word ← pieces nested n (.braces (inQuotes && !isPattern)) 0 []
        let use := match use? with
          | some (use, _) => use word
          | none => if wantsLength && word.isEmpty then .length else .malformed
        pieces nested n q depth (.param name use inQuotes :: before)
      | some c =>
        if isNameStart c then
          pieces nested n q depth (.param (← takeWhile isNameChar) .value inQuotes :: before)
        else if isSpecialParam c then
          advance
          pieces nested n q depth (.param (String.singleton c) .value inQuotes :: before)
        else pieces nested n q depth (q.push '$' before)
      | none => pieces nested n q depth (q.push '$' before)
    | some '\x60' =>
      advance
      pieces nested n q depth ((← grave nested q.isQuoted) :: before)
    | some c =>
      if c = '\'' && !q.isQuoted then
        advance
        pieces nested n q depth (.quoted (← singleQuoted) :: before)
      else if c = '"' && q = .double then
        advance
        return before.reverse
      else if c = '"' && (!q.isQuoted || q = .braces true) then
        advance
        let inner ← pieces nested n .double 0 []
        let inner := if inner.isEmpty then [.quoted ""] else inner
        pieces nested n q depth (inner.reverse ++ before)
      else if c = '\x7d' && (q = .braces true || q = .braces false) then
        advance
        return before.reverse
      else if c = '(' && q = .arithmetic then
        advance
        pieces nested n q (depth + 1) (q.push c before)
      else if c = ')' && q = .arithmetic then
        advance
        if 0 < depth then pieces nested n q (depth - 1) (q.push c before)
        else if ← take ')' then return before.reverse
        else pieces nested n q depth (q.push c before)
      else if q = .bare && endsWord c then return before.reverse
      else
        advance
        pieces nested n q depth (q.push c before)

/-- A number of steps that suffices for the rest of the script. -/
def steps : Reading Nat := do
  return 2 * (← get).rest.length + 10

/-- Reads a word. -/
def readWord (nested : Reading Command) : Reading Word := do
  pieces nested (← steps) .bare 0 []

/-! ## Here-documents -/

/-- The text up to the end of a line, with the line end, and the text after it. Line ends in quotes do
not count. -/
def splitLine (mark : Option Char) (line : List Char) : List Char → List Char × List Char
  | [] => (line.reverse, [])
  | '\\' :: c :: rest =>
    if mark = some '\'' then splitLine (if c = '\'' then none else mark) (c :: '\\' :: line) rest
    else splitLine mark (c :: '\\' :: line) rest
  | '\n' :: rest =>
    if mark.isNone then (('\n' :: line).reverse, rest) else splitLine mark ('\n' :: line) rest
  | c :: rest =>
    let mark := match mark with
      | some open_ => if c = open_ then none else mark
      | none => if c = '\'' || c = '"' then some c else none
    splitLine mark (c :: line) rest

/-- The lines of a here-document up to its delimiter, how many lines there are with the delimiter, and
the text after it. -/
def splitDocument (delimiter : List Char) (dropTabs : Bool) : (n : Nat) → (lines : List (List Char)) →
    List Char → List Char × Nat × List Char
  | 0, lines, text => (lines.reverse.flatten, lines.length, text)
  | _, lines, [] => (lines.reverse.flatten, lines.length, [])
  | n + 1, lines, text =>
    let line := text.takeWhile (· ≠ '\n')
    let rest := text.drop (line.length + 1)
    let shown := if dropTabs then line.dropWhile (· = '\t') else line
    if shown = delimiter then (lines.reverse.flatten, lines.length + 1, rest)
    else
      let ending := if line.length < text.length then ['\n'] else []
      splitDocument delimiter dropTabs n ((shown ++ ending) :: lines) rest

/-- The text of a delimiter. -/
def delimiterText (word : Word) : String :=
  String.join (word.map fun
    | .plain text | .quoted text => text
    | .param name _ _ => "$" ++ name
    | _ => "")

/-- Takes a here-document out of the script. If nothing in the delimiter is quoted, values are put
into it. -/
def readDocument (nested : Reading Command) (delimiter : Word) (dropTabs : Bool) : Reading Word := do
  let r ← get
  let (line, rest) := splitLine none [] r.rest
  let (text, count, after) :=
    splitDocument (delimiterText delimiter).toList dropTabs rest.length.succ [] rest
  set { r with rest := line ++ after, jumps := (after.length, count) :: r.jumps }
  if delimiter.all fun
      | .quoted _ => false
      | _ => true
  then
    within (r.line + 1) text do pieces nested (← steps) .document 0 []
  else return [.quoted (String.ofList text)]

/-! ## Tokens -/

/-- The words that have a meaning where a command can begin. -/
def keywords : List String :=
  ["!", "\x7b", "\x7d", "case", "do", "done", "elif", "else", "esac", "fi", "for", "if", "in",
    "then", "until", "while"]

/-- Passes over blanks and a comment. -/
def skipBlanks : (n : Nat) → Reading Unit
  | 0 => return ()
  | n + 1 => do
    match ← peek with
    | some ' ' | some '\t' =>
      advance
      skipBlanks n
    | some '#' => advanceBy ((← get).rest.takeWhile (· ≠ '\n')).length
    | _ => return ()

/-- Reads the beginning of a redirection. -/
def readRedirect (descriptor : Option Nat) : Reading Token := do
  if ← take '>' then
    if ← take '>' then return .redirect descriptor .append
    if ← take '|' then return .redirect descriptor .overwrite
    if ← take '&' then return .redirect descriptor .duplicate
    return .redirect descriptor .write
  advance
  let descriptor := some (descriptor.getD 0)
  if ← take '<' then return .document descriptor (← take '-')
  if ← take '&' then return .redirect descriptor .duplicate
  if ← take '>' then return .redirect descriptor .readWrite
  return .redirect descriptor .read

/-- The descriptor that the word in front of a redirection names, if it names one. -/
def descriptorOf? (word : Word) : Option (Option Nat) :=
  match word with
  | [] => some none
  | [.plain text] =>
    match text.toList with
    | [c] => if c.isDigit then some (some (c.toNat - '0'.toNat)) else none
    | _ => none
  | _ => none

/-- Reads a token, all words being just words. -/
def readPlain (nested : Reading Command) : Reading Token := do
  skipBlanks (← get).rest.length.succ
  let op (operator : Operator) : Reading Token := do
    advance
    return .op operator
  match ← peek with
  | none => return .endOfFile
  | some '\n' => op .newline
  | some '&' =>
    advance
    return .op (if ← take '&' then .andThen else .background)
  | some '|' =>
    advance
    return .op (if ← take '|' then .orElse else .pipe)
  | some ';' =>
    advance
    return .op (if ← take ';' then .caseEnd else .semicolon)
  | some '(' => op .openParen
  | some ')' => op .closeParen
  | some _ =>
    let word ← readWord nested
    match ← peek, descriptorOf? word with
    | some '<', some descriptor | some '>', some descriptor => readRedirect descriptor
    | _, _ => return .word word

/-- What is looked for in a token: whether line ends are passed over, and whether words can be
keywords or aliases. -/
structure Wanted where
  skipNewlines : Bool
  keywords : Bool
  aliases : Bool
deriving DecidableEq, Repr

/-- A token of a list of commands. -/
def anywhere : Wanted := ⟨true, true, true⟩

/-- A token that may be a keyword. -/
def inLine : Wanted := ⟨false, true, true⟩

/-- A token in which nothing has a meaning. -/
def asIs : Wanted := ⟨false, false, false⟩

/-- Takes the token that was put back, or reads one, passing over line ends if they are not wanted. -/
def readSkipping (nested : Reading Command) (skipsNewlines : Bool) : (n : Nat) → Reading Token
  | 0 => return .endOfFile
  | n + 1 => do
    let r ← get
    let token ← match r.pushed with
      | some token =>
        set { r with pushed := none }
        pure token
      | none => readPlain nested
    if skipsNewlines && token.isOp .newline then readSkipping nested skipsNewlines n
    else return token

/-- Replaces an alias by its text, unless it is being read already. -/
def expandAlias (name : String) : Reading Bool := do
  let r ← get
  let active := r.expanding.filter (·.2 < r.rest.length)
  match r.aliases.lookup name with
  | none => return false
  | some text =>
    if active.any (·.1 = name) then return false
    set { r with rest := text.toList ++ ' ' :: r.rest, expanding := (name, r.rest.length) :: active }
    return true

/-- Reads a token in at most `n` steps. -/
def readToken (nested : Reading Command) (wanted : Wanted) : (n : Nat) → Reading Token
  | 0 => return .endOfFile
  | n + 1 => do
    let token ← readSkipping nested wanted.skipNewlines (← steps)
    let token ← match token with
      | .word [.plain text] =>
        if wanted.keywords && keywords.contains text then pure (Token.keyword text)
        else if wanted.aliases then
          if ← expandAlias text then readToken nested wanted n else pure token
        else pure token
      | _ => pure token
    modify fun r => { r with last := token }
    return token

/-- Puts the last token back. -/
def putBack : Reading Unit :=
  modify fun r => { r with pushed := some r.last }

/-- Fails because of the last token. -/
def unexpected {α : Type} (expected : Option String) : Reading α := do
  fail (.unexpected (← get).last.describe expected)

end Reading

end Rebuild.Shell
