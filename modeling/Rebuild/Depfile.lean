import Rebuild.Graph
import Rebuild.Path

/-!
# Dependency files

A compiler can report the files that it read as records `outputs: dependencies`, one to a line.
Words are set apart by spaces, tabs, or a backslash at the end of a line, which makes the next line
go on with the same record. A space and `#` are escaped by a backslash and a dollar sign by another
one; a colon ends the outputs only at the end of a word.

Reading goes in two steps: `words` cuts the text, `addWord` puts one word after the other where it
belongs.
-/

namespace Rebuild

/-- The files that a dependency file names, each by its canonical path and once. -/
structure Depfile where
  outputs : List String
  deps : List String
deriving DecidableEq, Repr

namespace Depfile

/-- What ends a word: blank space, the colon after the outputs, the end of the record, or the end of
the file. -/
inductive WordEnd where
  | blank
  | colon
  | newline
  | eof
deriving DecidableEq, Repr

/-- A word, which may be empty, and what ends it. -/
structure Word where
  text : List Char
  ending : WordEnd
deriving DecidableEq, Repr

/-- A character after which a colon ends the outputs. -/
def endsWord (c : Char) : Bool :=
  c = ' ' || c = '\t' || c = '\n' || c = '\r'

/-- A word with one more character in front, and the rest of the text as it is. -/
def consChar (c : Char) (read : Word × List Char) : Word × List Char :=
  ({ read.1 with text := c :: read.1.text }, read.2)

/-- Reads a word. -/
def readWord : List Char → Word × List Char
  | [] => (⟨[], .eof⟩, [])
  | ' ' :: rest => (⟨[], .blank⟩, rest)
  | '\t' :: rest => (⟨[], .blank⟩, rest)
  | '\n' :: rest => (⟨[], .newline⟩, rest)
  | '\r' :: '\n' :: rest => (⟨[], .newline⟩, rest)
  | '\\' :: ' ' :: rest => consChar ' ' (readWord rest)
  | '\\' :: '#' :: rest => consChar '#' (readWord rest)
  | '\\' :: '\n' :: rest => (⟨[], .blank⟩, rest)
  | '\\' :: '\r' :: '\n' :: rest => (⟨[], .blank⟩, rest)
  | '\\' :: '\r' :: rest => (⟨[], .blank⟩, rest)
  | '$' :: '$' :: rest => consChar '$' (readWord rest)
  | [':'] => (⟨[], .colon⟩, [])
  | ':' :: c :: rest =>
    if endsWord c then (⟨[], .colon⟩, c :: rest) else consChar ':' (readWord (c :: rest))
  | c :: rest => consChar c (readWord rest)

theorem length_readWord_lt {text : List Char} (h : (readWord text).1.ending ≠ .eof) :
    (readWord text).2.length < text.length := by
  fun_induction readWord text with
  | case1 => simp at h
  | case6 _ ih | case7 _ ih | case11 _ ih => exact Nat.lt_add_right 1 (Nat.lt_add_right 1 (ih h))
  | case14 | case15 => rename_i ih; exact Nat.lt_add_right 1 (ih h)
  | _ => simp <;> omega

/-- The words of a text. The last one, and only that, is ended by the end of the file. -/
def words (text : List Char) : List Word :=
  if _last : (readWord text).1.ending = .eof then [(readWord text).1]
  else (readWord text).1 :: words (readWord text).2
termination_by text.length
decreasing_by exact length_readWord_lt _last

/-- What was read of a dependency file: the paths so far, whether the current record is still at its
outputs, and whether it has any. -/
structure Progress where
  depfile : Depfile
  inOutputs : Bool
  hasOutputs : Bool
deriving DecidableEq, Repr

/-- A list of paths with one more, unless it has it. -/
def addPath (paths : List String) (path : String) : List String :=
  if paths.contains path then paths else paths ++ [path]

/-- Puts the text of a word where it belongs. -/
def addText (p : Progress) (text : List Char) : Progress :=
  if text.isEmpty then p
  else
    let path := Path.canonical (String.ofList text)
    if p.inOutputs then
      { p with depfile.outputs := addPath p.depfile.outputs path, hasOutputs := true }
    else { p with depfile.deps := addPath p.depfile.deps path }

/-- Adds a word. A record that ends at its outputs is refused. -/
def addWord (p : Progress) (word : Word) : Option Progress :=
  let p := addText p word.text
  match word.ending with
  | .blank => some p
  | .colon => some { p with inOutputs := false }
  | .newline | .eof =>
    if p.inOutputs && p.hasOutputs then none
    else some { p with inOutputs := true, hasOutputs := false }

/-- Reads a dependency file, unless a record of it has no colon. -/
def parse? (text : List Char) : Option Depfile :=
  ((words text).foldlM addWord ⟨⟨[], []⟩, true, false⟩).map (·.depfile)

end Depfile

end Rebuild
