import Rebuild.Cursor

/-!
# Reading a manifest step by step

A lexer is a cursor that also remembers where the last token began, so that one token can be taken
back or only looked at. Each step leaves the lexer where it stopped reading, also when it fails.
-/

namespace Rebuild

/-- A cursor with the position before the last token. -/
structure Lexer where
  cursor : Cursor
  saved : Cursor
deriving DecidableEq, Repr

/-- Steps that read from a lexer and may find a fault. -/
abbrev Reading := EStateM LocatedFault Lexer

namespace Lexer

/-- A lexer at the start of a manifest. -/
def start (text : List Char) : Lexer := ⟨.start text, .start text⟩

/-- Reads with the cursor alone. -/
def withCursor {α : Type} (read : Cursor → Cursor.Outcome α) : Reading α := fun l =>
  match read l.cursor with
  | .ok a c => .ok a { l with cursor := c }
  | .error fault c => .error fault { l with cursor := c }

/-- Where the lexer stands. -/
def location : Reading Location := fun l => .ok l.cursor.location l

/-- Reads the next token. -/
def next : Reading Token := fun l =>
  match l.cursor.nextToken with
  | .ok token c => .ok token ⟨c, l.cursor⟩
  | .error fault c => .error fault ⟨c, l.cursor⟩

/-- Reads the next token if it is of the kind, and otherwise leaves it. -/
def peek (kind : TokenKind) : Reading (Option Token) := fun l =>
  match next l with
  | .ok token l' => if token.kind = kind then .ok (some token) l' else .ok none l
  | .error fault l' => .error fault l'

/-- Reads the next token, which has to be of the kind. -/
def expect (kind : TokenKind) : Reading Token := do
  let token ← next
  if token.kind = kind then return token
  throw ⟨token.location, .unexpectedToken (.token kind) token.kind⟩

/-- Takes back the last token. -/
def rewind : Reading Unit :=
  modify fun l => { l with cursor := l.saved }

/-- Moves over spaces, after which the lexer is inside a line. -/
def skipSpaces : Reading Unit :=
  modify fun l => { l with cursor := l.cursor.inLine.skipWhile isSpace }

/-- Reads an identifier. -/
def ident : Reading String :=
  withCursor Cursor.ident

/-- Reads a value. -/
def value (mode : ValueMode) : Reading Template :=
  withCursor (Cursor.value mode)

end Lexer

end Rebuild
