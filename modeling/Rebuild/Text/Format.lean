import Rebuild.Text.Floating

/-!
# Conversions of a format

A conversion in a format says how a value is written: with which flags, in what width, with what
precision and as what kind of value. A width or precision can also be left to an argument.
-/

namespace Rebuild.Format

/-- A width or a precision: none, a number, or that of the next argument. -/
inductive Extent where
  | none
  | number (n : Nat)
  | argument
deriving DecidableEq, Repr

/-- A conversion. -/
structure Conversion where
  flags : List Char
  width : Extent
  precision : Extent
  kind : Char
deriving DecidableEq, Repr

/-- Reads a number or a star. -/
def extent (text : List Char) : Extent × List Char :=
  match text with
  | '*' :: rest => (.argument, rest)
  | _ =>
    let row := text.takeWhile Char.isDigit
    match (String.ofList row).toNat? with
    | some n => (.number n, text.drop row.length)
    | none => (.none, text)

/-- Reads a conversion after its percent sign, with the text after it. -/
def conversion? (text : List Char) : Option (Conversion × List Char) :=
  let isFlag (c : Char) : Bool := ['-', '+', ' ', '#', '0'].contains c
  let flags := text.takeWhile isFlag
  let (width, rest) := extent (text.drop flags.length)
  let (precision, rest) : Extent × List Char := match rest with
    | '.' :: rest =>
      match extent rest with
      | (.none, rest) => (.number 0, rest)
      | found => found
    | _ => (.none, rest)
  let rest := rest.dropWhile fun c => c = 'l' || c = 'h' || c = 'j' || c = 'q' || c = 'L'
  match rest with
  | kind :: rest => some (⟨flags, width, precision, kind⟩, rest)
  | [] => none

namespace Conversion

/-- The conversion with the extents that are left to arguments. A negative width puts the value to the
left. -/
def withArguments (c : Conversion) (width precision : Option Int) : Conversion :=
  let c := match width with
    | some n =>
      { c with width := .number n.natAbs, flags := if n < 0 then '-' :: c.flags else c.flags }
    | none => c
  match precision with
  | some n => { c with precision := if n < 0 then .none else .number n.toNat }
  | none => c

def has (c : Conversion) (flag : Char) : Bool := c.flags.contains flag

def minWidth (c : Conversion) : Nat :=
  match c.width with
  | .number n => n
  | _ => 0

def precision? (c : Conversion) : Option Nat :=
  match c.precision with
  | .number n => some n
  | _ => none

/-- Fills a text up to the width with blanks. -/
def pad (c : Conversion) (text : String) : String :=
  let blanks := String.ofList (List.replicate (c.minWidth - text.length) ' ')
  if c.has '-' then text ++ blanks else blanks ++ text

/-- Fills a number up to the width, with zeros after its sign if that is wanted. -/
def padNumber (c : Conversion) (zeros : Bool) (sign digits : String) : String :=
  if zeros && c.has '0' && !c.has '-' then
    let missing := c.minWidth - sign.length - digits.length
    sign ++ String.ofList (List.replicate missing '0') ++ digits
  else c.pad (sign ++ digits)

/-- What stands in front of a number. -/
def signOf (c : Conversion) (isNegative : Bool) : String :=
  if isNegative then "-" else if c.has '+' then "+" else if c.has ' ' then " " else ""

/-- A text, of which no more is written than the precision says. -/
def string (c : Conversion) (text : String) : String :=
  c.pad (match c.precision? with
    | some n => (text.take n).toString
    | none => text)

/-- The digits of a number of which the precision says how many there are at least. -/
def digitsOf (c : Conversion) (digits : String) : String :=
  if c.precision? = some 0 && digits = "0" then ""
  else String.ofList (List.replicate (c.precision?.getD 1 - digits.length) '0') ++ digits

/-- A whole number with a sign. -/
def signed (c : Conversion) (value : Int) : String :=
  c.padNumber c.precision?.isNone (c.signOf (value < 0)) (c.digitsOf (toString value.natAbs))

/-- A whole number of 64 bits without a sign, in the base of the conversion. -/
def unsigned (c : Conversion) (value : Int) : String :=
  let value := (value % Int.pow 2 64).toNat
  let inBase (base : Nat) : String := String.ofList (Nat.toDigits base value)
  let zeros := c.precision?.isNone
  match c.kind with
  | 'o' =>
    let digits := c.digitsOf (inBase 8)
    let digits := if c.has '#' && !digits.startsWith "0" then "0" ++ digits else digits
    c.padNumber zeros "" digits
  | 'x' => c.padNumber zeros (if c.has '#' && value ≠ 0 then "0x" else "") (c.digitsOf (inBase 16))
  | 'X' =>
    c.padNumber zeros (if c.has '#' && value ≠ 0 then "0X" else "") (c.digitsOf (inBase 16).toUpper)
  | _ => c.padNumber zeros "" (c.digitsOf (toString value))

/-- A floating-point number. -/
def float (c : Conversion) (value : Float) : String :=
  let style := match c.kind.toLower with
    | 'e' => Floating.Style.power
    | 'g' => .shorter
    | _ => .fixed
  let (isNegative, size) := Floating.texts style (c.precision?.getD 6) (c.has '#') value
  let isFinite := size.any Char.isDigit
  c.padNumber isFinite (c.signOf isNegative) (if c.kind.isUpper then size.toUpper else size)

end Conversion

end Rebuild.Format
