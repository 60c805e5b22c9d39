import Rebuild.Text.Numeral
import Rebuild.Text.Unprintable

/-!
# Quoted text

Messages quote what a file or the user wrote so that it can be told apart from the message itself:
the quotation mark and the backslash are escaped, as are line feed, carriage return, tab and NUL,
and any other unprintable character appears as its number in hexadecimal.
-/

namespace Rebuild.Text

/-- The spelling of one character between quotation marks `mark`. -/
def escapeChar (mark : Char) (c : Char) : List Char :=
  if c = '\x00' then ['\\', '0']
  else if c = '\t' then ['\\', 't']
  else if c = '\n' then ['\\', 'n']
  else if c = '\r' then ['\\', 'r']
  else if c = '\\' ∨ c = mark then ['\\', c]
  else if isUnprintable c then ['\\', 'u', '{'] ++ Numeral.hexadecimal c.toNat ++ ['}']
  else [c]

/-- Text between quotation marks. -/
def quote (text : String) : String :=
  String.ofList ('"' :: text.toList.flatMap (escapeChar '"') ++ ['"'])

/-- A character between single quotation marks. -/
def quoteChar (c : Char) : String :=
  String.ofList ('\'' :: escapeChar '\'' c ++ ['\''])

/-- A list of quoted texts between brackets. -/
def quoteList (texts : List String) : String :=
  "[" ++ ", ".intercalate (texts.map quote) ++ "]"

end Rebuild.Text
