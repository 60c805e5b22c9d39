import Rebuild.Error
import Rebuild.Template

/-!
# Reading a manifest from the front

A cursor stands in a manifest: before it lies what was read, after it `rest`. It keeps count of
bytes and lines as it moves, so every place it can report is known without looking back. Line feed,
carriage return, and the two together in this order each end a line, and a cursor never stops
between the two.

Besides tokens a manifest has values, which end in ways of their own: a path ends at a blank, a
colon or a bar, any other value at the end of the line. Both are templates, written with `$`
escapes.
-/

namespace Rebuild

/-- A position in a manifest. -/
structure Cursor where
  rest : List Char
  offset : Nat
  line : Nat
  lineStart : Nat
  atLineStart : Bool
deriving DecidableEq, Repr

/-- A character of an identifier, and of a name between braces. -/
def isIdentChar (c : Char) : Bool :=
  c.isAlphanum || c = '_' || c = '.' || c = '-'

/-- A character of a variable name without braces. -/
def isSimpleVarChar (c : Char) : Bool :=
  c.isAlphanum || c = '_' || c = '-'

def isSpace (c : Char) : Bool := c = ' '

def isSpaceOrTab (c : Char) : Bool := c = ' ' || c = '\t'

/-- A character that begins a line end. -/
def isLineEnd (c : Char) : Bool := c = '\n' || c = '\r'

def isInLine (c : Char) : Bool := !isLineEnd c

/-- How a value ends. -/
inductive ValueMode where
  | path
  | line
deriving DecidableEq, Repr

/-- A character that stands for itself in a value. -/
def ValueMode.isPlain (mode : ValueMode) (c : Char) : Bool :=
  !isLineEnd c && c ≠ '$' && match mode with
    | .path => c ≠ ' ' && c ≠ ':' && c ≠ '|'
    | .line => true

namespace Cursor

/-- The start of a manifest. -/
def start (text : List Char) : Cursor := ⟨text, 0, 1, 0, true⟩

/-- Where the cursor stands. -/
def location (c : Cursor) : Location := ⟨c.line, c.offset - c.lineStart + 1⟩

/-- Moves over the characters in front that satisfy `p`. They stay on the line as long as `p` holds
of no line end. -/
def skipWhile (p : Char → Bool) (c : Cursor) : Cursor :=
  { c with rest := c.rest.dropWhile p, offset := c.offset + Utf8.size (c.rest.takeWhile p) }

/-- Moves over one character. -/
def skip (c : Cursor) : Cursor :=
  match c.rest with
  | [] => c
  | ch :: rest => { c with rest := rest, offset := c.offset + ch.utf8Size }

/-- The cursor at the start of the next line, `width` bytes further. -/
def toNextLine (c : Cursor) (width : Nat) (rest : List Char) : Cursor :=
  ⟨rest, c.offset + width, c.line + 1, c.offset + width, true⟩

/-- Moves over a line end, if there is one. -/
def skipLineEnd (c : Cursor) : Cursor :=
  match c.rest with
  | '\r' :: '\n' :: rest => c.toNextLine 2 rest
  | '\r' :: rest => c.toNextLine 1 rest
  | '\n' :: rest => c.toNextLine 1 rest
  | _ => c

/-- The same position, no longer taken for the start of a line. -/
def inLine (c : Cursor) : Cursor := { c with atLineStart := false }

theorem length_dropWhile_le (p : Char → Bool) (text : List Char) :
    (text.dropWhile p).length ≤ text.length :=
  (List.dropWhile_sublist p).length_le

theorem length_skipWhile_le (p : Char → Bool) (c : Cursor) :
    (c.skipWhile p).rest.length ≤ c.rest.length :=
  length_dropWhile_le p c.rest

theorem length_skipWhile_lt {p : Char → Bool} {c : Cursor} {ch : Char} {rest : List Char}
    (h : c.rest = ch :: rest) (hp : p ch = true) :
    (c.skipWhile p).rest.length < c.rest.length := by
  simp only [skipWhile, h, List.dropWhile_cons, hp, if_true, List.length_cons]
  exact Nat.lt_succ_of_le (length_dropWhile_le p rest)

theorem length_skip_le (c : Cursor) : c.skip.rest.length ≤ c.rest.length := by
  unfold skip
  split <;> simp_all

theorem length_skip_lt {c : Cursor} {ch : Char} {rest : List Char} (h : c.rest = ch :: rest) :
    c.skip.rest.length < c.rest.length := by
  simp [skip, h]

theorem length_skipLineEnd_le (c : Cursor) : c.skipLineEnd.rest.length ≤ c.rest.length := by
  unfold skipLineEnd
  split
  all_goals simp_all [toNextLine]
  all_goals omega

/-! ## Tokens -/

/-- The outcome of reading with a cursor: what was read and where the cursor went, or a fault and
where it stopped. -/
abbrev Outcome (α : Type) := EStateM.Result LocatedFault Cursor α

/-- A token that begins at the cursor. -/
def token (c : Cursor) (kind : TokenKind) (text : List Char) : Token :=
  ⟨kind, c.location, c.offset, text⟩

def fail {α : Type} (c : Cursor) (fault : SyntaxFault) : Outcome α :=
  .error ⟨c.location, fault⟩ c

/-- The token for the end of a line or of the file, at which the cursor stands. -/
def lineEndToken (c : Cursor) : Outcome Token :=
  match c.rest with
  | [] => .ok (c.token .eof []) c
  | _ => .ok (c.token .newline []) c.skipLineEnd

/-- Reads the next token inside a line. A comment reaches to the end of the line. -/
def tokenInLine (c : Cursor) : Outcome Token :=
  let c := c.skipWhile isSpace
  match c.rest with
  | [] => c.lineEndToken
  | ':' :: _ => .ok (c.token .colon [':']) c.skip
  | '=' :: _ => .ok (c.token .equals ['=']) c.skip
  | '|' :: '|' :: _ => .ok (c.token .pipe2 ['|', '|']) c.skip.skip
  | '|' :: '@' :: _ => .ok (c.token .pipeAt ['|', '@']) c.skip.skip
  | '|' :: _ => .ok (c.token .pipe ['|']) c.skip
  | '#' :: _ => (c.skipWhile isInLine).lineEndToken
  | ch :: _ =>
    if isLineEnd ch then c.lineEndToken
    else if isIdentChar ch then
      let word := c.rest.takeWhile isIdentChar
      let kind := (TokenKind.keyword? (String.ofList word)).getD .ident
      .ok (c.token kind word) (c.skipWhile isIdentChar)
    else c.fail (.unexpectedChar ch)

/-- Reads the next token. Lines that hold only a comment are passed over; spaces at the start of any
other line that is not blank are a token. -/
def nextToken (c : Cursor) : Outcome Token :=
  if c.atLineStart then
    let d := c.skipWhile isSpace
    match _front : d.rest with
    | [] => d.lineEndToken
    | ch :: _ =>
      if _comment : ch = '#' then nextToken (d.skipWhile isInLine).skipLineEnd
      else if isLineEnd ch then d.lineEndToken
      else if d.offset ≠ c.offset then
        .ok (c.token .indent (c.rest.takeWhile isSpace)) d.inLine
      else tokenInLine d.inLine
  else tokenInLine c
termination_by c.rest.length
decreasing_by
  calc (d.skipWhile isInLine).skipLineEnd.rest.length
      ≤ (d.skipWhile isInLine).rest.length := length_skipLineEnd_le _
    _ < d.rest.length := length_skipWhile_lt _front (by simp [_comment, isInLine, isLineEnd])
    _ ≤ c.rest.length := length_skipWhile_le ..

/-- Reads an identifier, past any spaces. -/
def ident (c : Cursor) : Outcome String :=
  let c := c.inLine.skipWhile isSpace
  let name := c.rest.takeWhile isIdentChar
  if name.isEmpty then c.fail .expectedIdent
  else .ok (String.ofList name) (c.skipWhile isIdentChar)

/-! ## Values -/

/-- Reads the escape at which the cursor stands, adding what it means to the template: a character
that would otherwise be special, nothing for a line that goes on after its end, or a variable. -/
def escape (c : Cursor) (t : Template) : Outcome Template :=
  let d := c.skip
  match d.rest with
  | '$' :: _ => .ok (t.pushLiteral "$") d.skip
  | ' ' :: _ => .ok (t.pushLiteral " ") d.skip
  | ':' :: _ => .ok (t.pushLiteral ":") d.skip
  | '{' :: _ =>
    let d := d.skip
    let name := d.rest.takeWhile isIdentChar
    let d := d.skipWhile isIdentChar
    match d.rest with
    | '}' :: _ =>
      if name.isEmpty then .error ⟨c.location, .badEscape⟩ d
      else .ok (t.pushVar (String.ofList name)) d.skip
    | _ => d.fail .unterminatedBrace
  | ch :: _ =>
    if isLineEnd ch then .ok t (d.skipLineEnd.inLine.skipWhile isSpaceOrTab)
    else if isSimpleVarChar ch then
      .ok (t.pushVar (String.ofList (d.rest.takeWhile isSimpleVarChar)))
        (d.skipWhile isSimpleVarChar)
    else .error ⟨c.location, .badEscape⟩ d
  | [] => .error ⟨c.location, .badEscape⟩ d

theorem length_escape_lt {c d : Cursor} {ch : Char} {rest : List Char} {t u : Template}
    (h : c.rest = ch :: rest) (he : c.escape t = .ok u d) : d.rest.length < c.rest.length := by
  have hs := length_skip_lt h
  have h1 (c : Cursor) := length_skip_le c
  have h2 (p) (c : Cursor) := length_skipWhile_le p c
  have h3 (c : Cursor) := length_skipLineEnd_le c
  unfold escape at he
  simp only at he
  split at he
  · cases he; exact Nat.lt_of_le_of_lt (h1 _) hs
  · cases he; exact Nat.lt_of_le_of_lt (h1 _) hs
  · cases he; exact Nat.lt_of_le_of_lt (h1 _) hs
  · split at he
    · split at he
      · simp at he
      · cases he
        exact Nat.lt_of_le_of_lt (Nat.le_trans (h1 _) (Nat.le_trans (h2 ..) (h1 _))) hs
    · simp [fail] at he
  · split at he
    · cases he
      exact Nat.lt_of_le_of_lt (Nat.le_trans (h2 ..) (h3 _)) hs
    · split at he
      · cases he
        exact Nat.lt_of_le_of_lt (h2 ..) hs
      · simp at he
  · simp at he

/-- Reads the pieces of a value from the cursor on, adding them to the template. -/
def pieces (mode : ValueMode) (c : Cursor) (t : Template) : Outcome Template :=
  let t := t.pushLiteral (String.ofList (c.rest.takeWhile mode.isPlain))
  let d := c.skipWhile mode.isPlain
  match _front : d.rest with
  | '$' :: _ =>
    match _read : d.escape t with
    | .ok t e => pieces mode e t
    | .error fault e => .error fault e
  | _ =>
    match mode with
    | .path => .ok t d
    | .line => .ok t d.skipLineEnd
termination_by c.rest.length
decreasing_by exact Nat.lt_of_lt_of_le (length_escape_lt _front _read) (length_skipWhile_le ..)

/-- Reads a value, past any spaces. A value to the end of the line takes the line end with it. -/
def value (mode : ValueMode) (c : Cursor) : Outcome Template :=
  pieces mode (c.inLine.skipWhile isSpace) .empty

end Cursor

end Rebuild
