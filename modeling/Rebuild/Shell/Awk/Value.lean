import Rebuild.Text.Format

/-!
# Values of record programs

A value is a number, a text, or nothing yet. Text that was read from outside counts as a number wherever
it looks like one. A variable without a value counts as 0 and as the empty text.
-/

namespace Rebuild.Shell.Awk

/-- A value. Text from outside may look like a number. -/
inductive Value where
  | unset
  | number (x : Float)
  | text (s : String)
  | input (s : String)
deriving Repr

instance : Inhabited Value := ⟨.unset⟩

/-! ## Whole numbers -/

/-- The whole part of a finite number. -/
def wholePart? (x : Float) : Option Int :=
  match Floating.parts x with
  | .finite isNegative m e =>
    let size : Nat := if 0 ≤ e then m * Nat.pow 2 e.toNat else m / Nat.pow 2 (-e).toNat
    some (if isNegative then -(size : Int) else size)
  | _ => none

/-- The whole part of a number, within the limits of 64 bits with a sign. -/
def clamped (x : Float) : Int :=
  match wholePart? x with
  | some n => max (-(Int.pow 2 63 - 1)) (min n (Int.pow 2 63 - 1))
  | none => if 0 < x then Int.pow 2 63 - 1 else -(Int.pow 2 63 - 1)

/-- The whole part of a number, within the limits of 64 bits without a sign. -/
def clampedUnsigned (x : Float) : Int :=
  match wholePart? x with
  | some n => max (-(Int.pow 2 64 - 1)) (min n (Int.pow 2 64 - 1))
  | none => if 0 < x then Int.pow 2 64 - 1 else 0

/-- The whole number that a number is, if it is one. -/
def whole? (x : Float) : Option Int :=
  if x.floor == x then wholePart? x else none

/-! ## Text and numbers -/

/-- Whether a character can surround a number. -/
def isBlank (c : Char) : Bool := c = ' ' || c = '\t' || c = '\n'

/-- The value of hexadecimal digits. -/
def hexValue (digits : List Char) : Nat :=
  digits.foldl (fun n c =>
    let digit := if c.isDigit then c.toNat - '0'.toNat else c.toLower.toNat - 'a'.toNat + 10
    16 * n + digit) 0

def isHexDigit (c : Char) : Bool := c.isDigit || ('a' ≤ c.toLower && c.toLower ≤ 'f')

/-- The number that a text begins with, and the text after it. -/
def leadingNumber? (text : List Char) : Option (Float × List Char) :=
  let (isNegative, body) := match text with
    | '-' :: rest => (true, rest)
    | '+' :: rest => (false, rest)
    | _ => (false, text)
  match body with
  | '0' :: x :: d :: rest =>
    if (x = 'x' || x = 'X') && isHexDigit d then
      let digits := (d :: rest).takeWhile isHexDigit
      let size := Float.ofNat (hexValue digits)
      some (if isNegative then -size else size, (d :: rest).drop digits.length)
    else Floating.split? text
  | _ => Floating.split? text

/-- The number that a text stands for: what it begins with, or 0. -/
def textNumber (s : String) : Float :=
  let text := s.toList.dropWhile fun c => c = ' ' || ('\t' ≤ c && c ≤ '\r')
  ((leadingNumber? text).map (·.1)).getD 0

/-- The number that a text looks like: blanks may stand around it. -/
def lookalike? (s : String) : Option Float :=
  let text := s.toList.dropWhile isBlank
  let text := (text.reverse.dropWhile isBlank).reverse
  let isStart (c : Char) : Bool := c.isDigit || c = '+' || c = '-' || c = '.'
  let isStop (c : Char) : Bool := c.isDigit || c = '.'
  if text.head?.any isStart && text.getLast?.any isStop then
    match leadingNumber? text with
    | some (x, []) => some x
    | _ => none
  else none

/-- A floating-point number by a conversion. What is no number has a sign. -/
def floatText (c : Format.Conversion) (x : Float) : String :=
  if x.isNaN then c.pad (if c.kind.isUpper then "-NAN" else "-nan") else c.float x

/-- A number as text: whole numbers in digits, others by a format. -/
def numberText (format : String) (x : Float) : String :=
  let byFormat : String :=
    match format.toList.span (· ≠ '%') with
    | (before, '%' :: rest) =>
      match Format.conversion? rest with
      | some (c, after) =>
        let shown := match c.kind with
          | 'd' | 'i' => c.signed (clamped x)
          | 'o' | 'x' | 'X' | 'u' => c.unsigned (clampedUnsigned x)
          | _ => floatText c x
        String.ofList before ++ shown ++ String.ofList after
      | none => format
    | _ => format
  match whole? x with
  | some n =>
    if -Int.pow 2 63 ≤ n && n < Int.pow 2 63 then toString n
    else if 0 < n && n ≤ Int.pow 2 64 then toString (min n (Int.pow 2 64 - 1))
    else byFormat
  | none => byFormat

namespace Value

/-- The value as a number. -/
def toNumber : Value → Float
  | unset => 0
  | number x => x
  | text s | input s => textNumber s

/-- The value as text, numbers being written by a format. -/
def toText (format : String) : Value → String
  | unset => ""
  | number x => numberText format x
  | text s | input s => s

/-- The number that the value is, if it counts as one. -/
def number? : Value → Option Float
  | unset => some 0
  | number x => some x
  | text _ => none
  | input s => lookalike? s

/-- Whether the value counts as true. -/
def isTrue : Value → Bool
  | unset => false
  | number x => x != 0
  | text s => s ≠ ""
  | input s =>
    match lookalike? s with
    | some x => x != 0
    | none => s ≠ ""

/-- Compares two values: as numbers if both count as numbers, and as text otherwise. Something that is
neither less nor greater counts as equal. -/
def order (format : String) (a b : Value) : Ordering :=
  match a.number?, b.number? with
  | some x, some y => if x < y then .lt else if y < x then .gt else .eq
  | _, _ =>
    let s := a.toText format
    let t := b.toText format
    if s < t then .lt else if t < s then .gt else .eq

def ofBool (b : Bool) : Value := .number (if b then 1 else 0)

def ofNat (n : Nat) : Value := .number (Float.ofNat n)

def ofInt (n : Int) : Value := .number (Float.ofInt n)

end Value

/-! ## Printing by a format -/

/-- Why a format cannot be used: values are missing for it, or one of its conversions makes no sense. -/
inductive FormatFault where
  | missing
  | improper (number : Nat)
deriving DecidableEq, Repr

/-- The fault in words, for something that was to be printed by a format. -/
def FormatFault.message (name format : String) : FormatFault → String
  | missing => "not enough arguments passed to " ++ name ++ "(\"" ++ format ++ "\")"
  | improper number => "improper conversion(number " ++ toString number ++ ") in " ++ name ++ "(\"" ++
      format ++ "\")"

/-- The character that a value stands for: that with its number, or its first one. -/
def Value.toChar (v : Value) : Char :=
  match v with
  | .unset => '\x00'
  | .text s => (s.toList.head?).getD '\x00'
  | .number x => Char.ofNat (clamped x % 256).toNat
  | .input s =>
    match lookalike? s with
    | some x => Char.ofNat (clamped x % 256).toNat
    | none => (s.toList.head?).getD '\x00'

/-- Writes a value by a conversion, if that makes sense. -/
def convert? (format : String) (c : Format.Conversion) (v : Value) : Option String :=
  match c.kind with
  | 'd' | 'i' =>
    let x := v.toNumber
    some (if 9223372036854775808 ≤ x then c.padNumber c.precision?.isNone (c.signOf false)
        (c.digitsOf (toString (clampedUnsigned x)))
      else c.signed (clamped x))
  | 'o' | 'u' | 'x' | 'X' => some (c.unsigned (clampedUnsigned v.toNumber))
  | 'e' | 'E' | 'f' | 'F' | 'g' | 'G' => some (floatText c v.toNumber)
  | 'c' => some (c.pad (String.singleton v.toChar))
  | 's' => some (c.string (v.toText format))
  | _ => none

/-- Prints values by a format in at most `n` steps, the pieces before it the last first, and `count`
being the number of the next conversion. What was printed before a fault is given as well. -/
def printOn (numbers : String) : (n count : Nat) → List Char → List Value → List String →
    List String × Option FormatFault
  | 0, _, _, _, before | _, _, [], _, before => (before, none)
  | n + 1, count, '%' :: '%' :: rest, values, before =>
    printOn numbers n count rest values ("%" :: before)
  | n + 1, count, '%' :: rest, values, before =>
    match Format.conversion? rest with
    | none => (before, some (.improper count))
    | some (c, after) =>
      let wanted := (if c.width = .argument then 1 else 0) + if c.precision = .argument then 1 else 0
      if values.length < wanted then (before, some .missing)
      else
        let numberOf (v : Value) : Int := clamped v.toNumber
        let width := if c.width = .argument then values.head?.map numberOf else none
        let rest := if c.width = .argument then values.tail else values
        let precision := if c.precision = .argument then rest.head?.map numberOf else none
        let rest := if c.precision = .argument then rest.tail else rest
        let c := c.withArguments width precision
        match rest with
        | [] => (before, some (if (convert? numbers c .unset).isSome then .missing else .improper count))
        | v :: rest =>
          match convert? numbers c v with
          | some text => printOn numbers n (count + 1) after rest (text :: before)
          | none => (before, some (.improper count))
  | n + 1, count, c :: rest, values, before =>
    printOn numbers n count rest values (String.singleton c :: before)

/-- Prints values by a format. What was printed before a fault is given as well. -/
def printed (numbers format : String) (values : List Value) : String × Option FormatFault :=
  let (pieces, fault?) := printOn numbers (format.length + 1) 1 format.toList values []
  (String.join pieces.reverse, fault?)

end Rebuild.Shell.Awk
