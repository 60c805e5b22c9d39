import Rebuild.Shell.Awk.Value

/-!
# The words of record programs

A program is cut into words, numbers, texts, regular expressions and marks. A slash begins a regular
expression unless something to divide stands in front of it.
-/

namespace Rebuild.Shell.Awk

/-- A part of a program. A name directly in front of a parenthesis is that of a function. -/
inductive Token where
  | number (x : Float)
  | text (s : String)
  | regex (s : String)
  | name (s : String)
  | called (s : String)
  | builtin (s : String)
  | word (s : String)
  | mark (s : String)
  | newline
  | stop
deriving Repr

/-- A part of a program as it is written, with its line, and the parentheses and braces that are open
after it. -/
structure Lexeme where
  token : Token
  shown : String
  line : Nat
  parens : Nat
  braces : Nat
deriving Repr

instance : Inhabited Lexeme := ⟨⟨.stop, "end of file", 0, 0, 0⟩⟩

/-- Why a program makes no sense, and on which line. -/
inductive ProgramFault where
  | at (line : Nat) (text : String)
  | unexpected (line : Nat) (c : Char)
deriving DecidableEq, Repr

/-- The fault in words. -/
def ProgramFault.message : ProgramFault → String
  | «at» line text => "line " ++ toString line ++ ": " ++ text
  | unexpected line c => toString line ++ ": unexpected character '" ++ String.singleton c ++ "'"

/-! ## Escapes -/

/-- The character that a letter stands for after a backslash. -/
def escape? : Char → Option Char
  | '"' => some '"'
  | '\\' => some '\\'
  | 'a' => some '\x07'
  | 'b' => some '\x08'
  | 'f' => some '\x0c'
  | 'n' => some '\n'
  | 'r' => some '\r'
  | 't' => some '\t'
  | 'v' => some '\x0b'
  | _ => none

def isOctal (c : Char) : Bool := '0' ≤ c && c ≤ '7'

/-- A text with its escapes replaced, in at most `n` steps. A backslash in front of other characters
stays. -/
def unescapeOn : (n : Nat) → List Char → List Char
  | 0, rest => rest
  | _, [] => []
  | n + 1, '\\' :: '\n' :: rest => unescapeOn n rest
  | n + 1, '\\' :: c :: rest =>
    match escape? c with
    | some meant => meant :: unescapeOn n rest
    | none =>
      let octal := ((c :: rest).takeWhile isOctal).take 3
      let hex := (rest.takeWhile isHexDigit).take 2
      if !octal.isEmpty then
        let value := octal.foldl (fun n d => 8 * n + (d.toNat - '0'.toNat)) 0
        Char.ofNat (value % 256) :: unescapeOn n ((c :: rest).drop octal.length)
      else if c = 'x' && !hex.isEmpty then
        Char.ofNat (hexValue hex) :: unescapeOn n (rest.drop hex.length)
      else '\\' :: c :: unescapeOn n rest
  | n + 1, c :: rest => c :: unescapeOn n rest

/-- A text with its escapes replaced. -/
def unescape (text : String) : String :=
  String.ofList (unescapeOn (text.length + 1) text.toList)

/-! ## Lexemes -/

/-- Words with a meaning of their own. -/
def keywords : List String :=
  ["BEGIN", "END", "if", "else", "while", "for", "do", "break", "continue", "next", "nextfile", "exit",
    "return", "delete", "in", "getline", "print", "printf", "function"]

/-- The functions that every program has. -/
def builtins : List String :=
  ["length", "index", "substr", "sprintf", "split", "match", "sub", "gsub", "close", "fflush", "system",
    "toupper", "tolower", "sin", "cos", "atan2", "exp", "log", "int", "sqrt", "rand", "srand", "mktime",
    "strftime", "systime"]

/-- The marks, longer ones in front of those with which they begin. -/
def marks : List String :=
  ["&&", "||", "++", "--", "+=", "-=", "*=", "/=", "%=", "^=", "==", "!=", "!~", "<=", ">=", ">>", "\x7b",
    "\x7d", "(", ")", "[", "]", ";", ",", "+", "-", "*", "/", "%", "^", "!", ">", "<", "|", "?", ":", "~", "$",
    "="]

/-- Whether something to divide can end with a token. -/
def Token.canDivide : Token → Bool
  | number _ | text _ | regex _ | name _ => true
  | builtin s => s = "length"
  | word s => s = "getline"
  | mark s => [")", "]", "++", "--"].contains s
  | _ => false

/-- The text up to a quotation mark, and what comes after it. -/
def textEnd : List Char → Option (List Char × List Char)
  | '"' :: rest => some ([], rest)
  | '\\' :: c :: rest => (textEnd rest).map fun (text, rest) => ('\\' :: c :: text, rest)
  | '\n' :: _ | [] => none
  | c :: rest => (textEnd rest).map fun (text, rest) => (c :: text, rest)

/-- The regular expression up to a slash that does not stand between brackets, and what comes after
it. -/
def regexEnd : (isInside : Bool) → List Char → Option (List Char × List Char)
  | false, '/' :: rest => some ([], rest)
  | inside, '\\' :: '/' :: rest => (regexEnd inside rest).map fun (text, rest) => ('/' :: text, rest)
  | inside, '\\' :: c :: rest =>
    (regexEnd inside rest).map fun (text, rest) => ('\\' :: c :: text, rest)
  | _, '\n' :: _ | _, [] => none
  | false, '[' :: '^' :: ']' :: rest =>
    (regexEnd true rest).map fun (text, rest) => ('[' :: '^' :: ']' :: text, rest)
  | false, '[' :: ']' :: rest =>
    (regexEnd true rest).map fun (text, rest) => ('[' :: ']' :: text, rest)
  | inside, c :: rest =>
    (regexEnd (if c = '[' then true else if c = ']' then false else inside) rest).map
      fun (text, rest) => (c :: text, rest)

/-- The length of the number with which a text begins. -/
def numberLength (text : List Char) : Nat :=
  let whole := text.takeWhile Char.isDigit
  let rest := text.drop whole.length
  let point := match rest with
    | '.' :: after => 1 + (after.takeWhile Char.isDigit).length
    | _ => 0
  let rest := rest.drop point
  let power := match rest with
    | c :: after =>
      let sign := if after.head? = some '-' || after.head? = some '+' then 1 else 0
      let digits := (after.drop sign).takeWhile Char.isDigit
      if (c = 'e' || c = 'E') && !digits.isEmpty then 1 + sign + digits.length else 0
    | [] => 0
  whole.length + point + power

/-- What was cut so far: the line, the open parentheses and braces, and the lexemes, the last first. -/
structure Cutting where
  line : Nat
  parens : Nat
  braces : Nat
  done : List Lexeme

/-- Adds a token. -/
def Cutting.add (s : Cutting) (token : Token) (shown : String) (line : Nat) : Cutting :=
  let (parens, braces) := match token with
    | .mark "(" => (s.parens + 1, s.braces)
    | .mark ")" => (s.parens - 1, s.braces)
    | .mark "\x7b" => (s.parens, s.braces + 1)
    | .mark "\x7d" => (s.parens, s.braces - 1)
    | _ => (s.parens, s.braces)
  ⟨s.line, parens, braces, ⟨token, shown, line, parens, braces⟩ :: s.done⟩

def isNameStart (c : Char) : Bool := c.isAlpha || c = '_'

def isNameChar (c : Char) : Bool := c.isAlphanum || c = '_'

/-- Cuts a program into lexemes, in at most `n` steps. -/
def cutOn : (n : Nat) → List Char → Cutting → Except ProgramFault Cutting
  | 0, _, s | _, [], s => .ok s
  | n + 1, c :: rest, s => do
    let text := c :: rest
    let previous := ((s.done.head?).map (·.token)).getD .newline
    if c = ' ' || c = '\t' || c = '\r' then cutOn n rest s
    else if c = '\n' then cutOn n rest { s.add .newline "end of line" s.line with line := s.line + 1 }
    else if c = '#' then cutOn n (rest.dropWhile (· ≠ '\n')) s
    else if c = '\\' && rest.head? = some '\n' then cutOn n rest.tail { s with line := s.line + 1 }
    else if c = '"' then
      match textEnd rest with
      | none =>
        let shown := rest.takeWhile (· ≠ '\n')
        throw (.at s.line ("runaway string constant \"" ++ String.ofList shown ++ " ..."))
      | some (body, after) =>
        let lines := body.count '\n'
        let s := s.add (.text (unescape (String.ofList body))) ("\"" ++ String.ofList body ++ "\"") s.line
        cutOn n after { s with line := s.line + lines }
    else if c = '/' && !previous.canDivide then
      match regexEnd false rest with
      | none =>
        let shown := rest.takeWhile (· ≠ '\n')
        throw (.at s.line ("runaway regular expression /" ++ String.ofList shown ++ " ..."))
      | some (body, after) =>
        cutOn n after (s.add (.regex (String.ofList body)) ("/" ++ String.ofList body ++ "/") s.line)
    else if c.isDigit || (c = '.' && rest.head?.any Char.isDigit) then
      let length := numberLength text
      let shown := text.take length
      let x := ((Floating.split? shown).map (·.1)).getD 0
      if x.isInf then throw (.at s.line (String.ofList shown ++ " : decimal overflow"))
      cutOn n (text.drop length) (s.add (.number x) (String.ofList shown) s.line)
    else if isNameStart c then
      let word := text.takeWhile isNameChar
      let after := text.drop word.length
      let word := String.ofList word
      let token : Token :=
        if keywords.contains word then .word word
        else if builtins.contains word then .builtin word
        else if after.head? = some '(' then .called word
        else .name word
      cutOn n after (s.add token word s.line)
    else
      match marks.find? fun mark => mark.toList.isPrefixOf text with
      | none => throw (.unexpected s.line c)
      | some mark =>
        if mark = "\x7d" && s.braces = 0 then throw (.at s.line "extra '\x7d'")
        if mark = ")" && s.parens = 0 then throw (.at s.line "extra ')'")
        cutOn n (text.drop mark.length) (s.add (.mark mark) mark s.line)

/-- Cuts a program into lexemes. -/
def lexemes (text : String) : Except ProgramFault (List Lexeme) := do
  let chars := text.toList
  let s ← cutOn (chars.length + 2) (chars ++ ['\n']) ⟨1, 0, 0, []⟩
  return (s.add .stop "end of file" s.line).done.reverse

end Rebuild.Shell.Awk
