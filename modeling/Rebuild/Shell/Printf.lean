import Rebuild.Shell.Arithmetic
import Rebuild.Text.Format

/-!
# Printing by a format

What `echo` and `printf` print. A format is used again as long as there are words left that it has
not consumed; a conversion without a word gets an empty one. The shell and the tool of that name
differ in the escapes that they know and in what they complain about.
-/

namespace Rebuild.Shell.Printf

/-! ## Escapes -/

/-- Up to `n` digits of a base in front of a text: their value, and the text after them. -/
def digits (base : Nat) : (n : Nat) → (value : Nat) → List Char → Nat × List Char
  | n + 1, value, c :: rest =>
    match Arithmetic.digit? base c with
    | some digit => digits base n (value * base + digit) rest
    | none => (value, c :: rest)
  | _, value, rest => (value, rest)

/-- The character that a letter stands for after a backslash. -/
def letter? : Char → Option Char
  | 'a' => some '\x07'
  | 'b' => some '\x08'
  | 'f' => some '\x0c'
  | 'n' => some '\n'
  | 'r' => some '\r'
  | 't' => some '\t'
  | 'v' => some '\x0b'
  | 'e' => some '\x1b'
  | '\\' => some '\\'
  | _ => none

/-- The character with the number that is left of a number in eight bits. -/
def byte (n : Nat) : Char := Char.ofNat (n % 256)

/-- What an escape in a format stands for, and the text after it. The tool also knows hexadecimal digits
and a quotation mark. -/
def escape (asTool : Bool) (text : List Char) : String × List Char :=
  match text with
  | [] => ("\\", [])
  | c :: rest =>
    match letter? c, rest with
    | some meant, _ => (String.singleton meant, rest)
    | none, d :: _ =>
      if (Arithmetic.digit? 8 c).isSome then
        let (value, rest) := digits 8 3 0 text
        (String.singleton (byte value), rest)
      else if asTool && c = 'x' && (Arithmetic.digit? 16 d).isSome then
        let (value, rest) := digits 16 2 0 rest
        (String.singleton (byte value), rest)
      else if asTool && c = '"' then ("\"", rest)
      else (String.ofList ['\\', c], rest)
    | none, [] =>
      match Arithmetic.digit? 8 c with
      | some value => (String.singleton (byte value), rest)
      | none => (if asTool && c = '"' then "\"" else String.ofList ['\\', c], rest)

/-- A text with its escapes replaced, in at most `n` steps, and whether printing goes on after it. Octal
digits can follow a zero. -/
def unescape (asTool : Bool) : (n : Nat) → List Char → String × Bool
  | 0, _ | _, [] => ("", true)
  | _ + 1, '\\' :: 'c' :: _ => ("", false)
  | n + 1, '\\' :: '0' :: rest =>
    let (value, rest) := digits 8 3 0 rest
    let (more, goesOn) := unescape asTool n rest
    (String.singleton (byte value) ++ more, goesOn)
  | n + 1, '\\' :: rest =>
    let (meant, rest) := escape asTool rest
    let (more, goesOn) := unescape asTool n rest
    (meant ++ more, goesOn)
  | n + 1, c :: rest =>
    let (more, goesOn) := unescape asTool n rest
    (String.singleton c ++ more, goesOn)

/-- A text with its escapes replaced. -/
def unescaped (asTool : Bool) (text : String) : String × Bool :=
  unescape asTool text.length.succ text.toList

/-- Words with their escapes replaced and blanks between them, up to where printing stops. -/
def echoWords (ending : String) : List String → String
  | [] => ending
  | [word] =>
    let (text, goesOn) := unescaped false word
    if goesOn then text ++ ending else text
  | word :: rest =>
    let (text, goesOn) := unescaped false word
    if goesOn then text ++ " " ++ echoWords ending rest else text

/-! ## Formats -/

/-- What was printed so far, what is complained about, the words that are left, whether printing has
stopped, and the fault that stopped it. -/
structure Printed where
  text : String
  complaints : List String
  words : List String
  isOver : Bool
  fault : Option String

namespace Printed

def add (p : Printed) (text : String) : Printed :=
  { p with text := p.text ++ text }

/-- Takes the next word. -/
def next (p : Printed) : String × Printed :=
  (p.words.headD "", { p with words := p.words.tail })

def complain (p : Printed) (text : String) : Printed :=
  { p with complaints := p.complaints ++ [text] }

end Printed

/-- The complaint about a word that is no number, or of which only a part is one. -/
def numberComplaint (asTool : Bool) (word : String) (partly : Bool) : String :=
  match asTool, partly with
  | false, false => word ++ ": expected numeric value"
  | false, true => word ++ ": not completely converted"
  | true, false => "'" ++ word ++ "': expected a numeric value"
  | true, true => "'" ++ word ++ "': value not completely converted"

/-- The whole number that a word writes, or that of the character after a quotation mark. -/
def integer (asTool : Bool) (word : String) (p : Printed) : Int × Printed :=
  match word.toList with
  | [] => (0, p)
  | '"' :: c :: _ | '\'' :: c :: _ => (c.toNat, p)
  | text =>
    let body := text.dropWhile Arithmetic.isSpace
    let (isNegative, body) := match body with
      | '-' :: rest => (true, rest)
      | '+' :: rest => (false, rest)
      | _ => (false, body)
    match Arithmetic.splitNumber? body with
    | none => (0, p.complain (numberComplaint asTool word false))
    | some (size, rest) =>
      let value : Int := if isNegative then -(size : Int) else size
      let limited := max (-(Int.pow 2 63)) (min value (Int.pow 2 63 - 1))
      if !rest.isEmpty then (limited, p.complain (numberComplaint asTool word true))
      else if limited ≠ value then
        let shown := if asTool then "'" ++ word ++ "'" else word
        (limited, p.complain (shown ++ ": Numerical result out of range"))
      else (limited, p)

/-- The number that a word writes. -/
def float (asTool : Bool) (word : String) (p : Printed) : Float × Printed :=
  match word.toList with
  | [] => (0, p)
  | '"' :: c :: _ | '\'' :: c :: _ => (Float.ofNat c.toNat, p)
  | text =>
    match Floating.split? (text.dropWhile Arithmetic.isSpace) with
    | none => (0, p.complain (numberComplaint asTool word false))
    | some (value, rest) =>
      (value, if rest.isEmpty then p else p.complain (numberComplaint asTool word true))

/-- The number for an extent that is left to a word. -/
def extent (asTool : Bool) (e : Format.Extent) (p : Printed) : Option Int × Printed :=
  match e with
  | .argument =>
    let (word, p) := p.next
    let (n, p) := integer asTool word p
    (some n, p)
  | _ => (none, p)

/-- A word between quotation marks if it has characters with a meaning for the shell. -/
def quoted (word : String) : String :=
  let isSafe (c : Char) : Bool := c.isAlphanum || "%+,-./:=@_^".toList.contains c
  if word = "" then "''"
  else if word.all isSafe then word
  else if word.toList.contains '\'' && !word.toList.any fun c => "\"$\\!".toList.contains c || c = '\x60'
  then "\"" ++ word ++ "\""
  else "'" ++ word.replace "'" "'\\''" ++ "'"

/-- Writes the next word by a conversion. -/
def convert (asTool : Bool) (c : Format.Conversion) (p : Printed) : Option Printed :=
  let (width, p) := extent asTool c.width p
  let (precision, p) := extent asTool c.precision p
  let c := c.withArguments width precision
  let (word, p) := p.next
  match c.kind with
  | 's' => some (p.add (c.string word))
  | 'c' => some (p.add (c.pad (if word = "" && !asTool then "\x00" else (word.take 1).toString)))
  | 'b' =>
    let (text, goesOn) := unescaped asTool word
    some { p.add (c.string text) with isOver := !goesOn }
  | 'q' => if asTool then some (p.add (c.string (quoted word))) else none
  | 'd' | 'i' =>
    let (value, p) := integer asTool word p
    some (p.add (c.signed value))
  | 'o' | 'u' | 'x' | 'X' =>
    let (value, p) := integer asTool word p
    some (p.add (c.unsigned value))
  | 'e' | 'E' | 'f' | 'F' | 'g' | 'G' =>
    let (value, p) := float asTool word p
    some (p.add (c.float value))
  | _ => none

/-- Prints by a format once, in at most `n` steps. -/
def once (asTool : Bool) : (n : Nat) → List Char → Printed → Printed
  | 0, _, p | _, [], p => p
  | n + 1, '%' :: '%' :: rest, p => once asTool n rest (p.add "%")
  | n + 1, '%' :: rest, p =>
    match Format.conversion? rest with
    | none =>
      let fault := if asTool then "%" ++ String.ofList rest ++ ": invalid conversion specification"
        else "missing format character"
      { p with fault := some fault }
    | some (c, after) =>
      match convert asTool c p with
      | some p => if p.isOver then p else once asTool n after p
      | none =>
        let directive := "%" ++ String.ofList (rest.take (rest.length - after.length))
        let reason := if asTool then ": invalid conversion specification" else ": invalid directive"
        { p with fault := some (directive ++ reason) }
  | n + 1, '\\' :: rest, p =>
    if asTool && rest.head? = some 'c' then { p with isOver := true }
    else
      let (meant, rest) := escape asTool rest
      once asTool n rest (p.add meant)
  | n + 1, c :: rest, p => once asTool n rest (p.add (String.singleton c))

/-- Prints by a format as long as it consumes words, at most `n` times. -/
def again (asTool : Bool) (format : List Char) : (n : Nat) → Printed → Printed
  | 0, p => p
  | n + 1, p =>
    let after := once asTool format.length.succ format p
    if after.isOver || after.fault.isSome || after.words.isEmpty ||
        after.words.length = p.words.length then after
    else again asTool format n after

/-- Prints words by a format. -/
def words (asTool : Bool) (format : String) (words : List String) : Printed :=
  again asTool format.toList words.length.succ ⟨"", [], words, false, none⟩

end Rebuild.Shell.Printf
