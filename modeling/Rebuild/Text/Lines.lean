/-!
# Lines and blanks

A line ends at a line feed, and a carriage return just before the line feed belongs to the line end.
The last line needs no line end. Blanks are the characters of the Unicode property `White_Space`.
-/

namespace Rebuild.Text

/-- The characters of the property `White_Space`. -/
def isBlank (c : Char) : Bool :=
  c = ' ' || ('\t' ≤ c && c ≤ '\r') || c = '\u0085' || c = '\u00A0' || c = '\u1680' ||
    ('\u2000' ≤ c && c ≤ '\u200A') || c = '\u2028' || c = '\u2029' || c = '\u202F' ||
    c = '\u205F' || c = '\u3000'

/-- Text without blanks at its ends. -/
def trim (text : List Char) : List Char :=
  ((text.dropWhile isBlank).reverse.dropWhile isBlank).reverse

/-- A line without the carriage return that may end it. -/
def dropCarriageReturn (line : List Char) : List Char :=
  match line.reverse with
  | '\r' :: rest => rest.reverse
  | _ => line

/-- Cuts text at each line feed, `line` being the part of the current line already read. A text that
ends with a line feed has no further line. -/
def cutLines (line : List Char) : List Char → List (List Char)
  | [] => if line.isEmpty then [] else [line]
  | '\n' :: rest => dropCarriageReturn line :: cutLines [] rest
  | c :: rest => cutLines (line ++ [c]) rest

/-- The lines of a text, without their ends. -/
def lines (text : List Char) : List (List Char) :=
  cutLines [] text

end Rebuild.Text
