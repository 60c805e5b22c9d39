/-!
# Tokens of a manifest

Kinds of tokens with their names in messages, and places in a manifest. Lines are counted from 1,
and columns are counted from 1 in bytes.
-/

namespace Rebuild

/-- The kinds of tokens. -/
inductive TokenKind where
  | build | rule | pool | default | include | subninja
  | ident | colon | equals | pipe | pipe2 | pipeAt
  | indent | newline | eof
deriving DecidableEq, Repr

namespace TokenKind

/-- The statement that a word begins, if it is a keyword. -/
def keyword? (word : String) : Option TokenKind :=
  if word = "build" then some .build
  else if word = "rule" then some .rule
  else if word = "pool" then some .pool
  else if word = "default" then some .default
  else if word = "include" then some .include
  else if word = "subninja" then some .subninja
  else none

/-- The kind as messages name it. -/
def describe : TokenKind → String
  | .build => "'build'"
  | .rule => "'rule'"
  | .pool => "'pool'"
  | .default => "'default'"
  | .include => "'include'"
  | .subninja => "'subninja'"
  | .ident => "identifier"
  | .colon => "':'"
  | .equals => "'='"
  | .pipe => "'|'"
  | .pipe2 => "'||'"
  | .pipeAt => "'|@'"
  | .indent => "indent"
  | .newline => "newline"
  | .eof => "end of file"

end TokenKind

/-- A place in a manifest. -/
structure Location where
  line : Nat
  column : Nat
deriving DecidableEq, Repr

/-- A token with its place, its distance in bytes from the start of the manifest, and its text. Line
ends and the end of the file have no text. -/
structure Token where
  kind : TokenKind
  location : Location
  offset : Nat
  text : List Char
deriving DecidableEq, Repr

end Rebuild
