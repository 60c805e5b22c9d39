/-!
# Floating-point numbers as text

A finite number is a whole number times a power of two, and so its decimal digits can be computed
exactly. Digits that are left out are rounded to the nearest, and a tie goes to the even neighbour.
-/

namespace Rebuild.Floating

/-- A number taken apart: its sign, and its size if it is finite. -/
inductive Parts where
  | finite (isNegative : Bool) (mantissa : Nat) (exponent : Int)
  | infinite (isNegative : Bool)
  | notNumber (isNegative : Bool)
deriving DecidableEq, Repr

/-- Takes a number apart. -/
def parts (x : Float) : Parts :=
  let bits := x.toBits.toNat
  let isNegative := decide (Nat.pow 2 63 ≤ bits)
  let exponent : Nat := bits / Nat.pow 2 52 % 2048
  let fraction := bits % Nat.pow 2 52
  if exponent = 2047 then
    if fraction = 0 then .infinite isNegative else .notNumber isNegative
  else if exponent = 0 then .finite isNegative fraction (-1074)
  else .finite isNegative (fraction + Nat.pow 2 52) ((exponent : Int) - 1075)

/-- The whole number nearest to a quotient, the even one of two. -/
def roundDiv (a b : Nat) : Nat :=
  let q := a / b
  let twice := 2 * (a % b)
  if twice < b then q
  else if b < twice then q + 1
  else q + q % 2

/-- The whole number nearest to `m` times `2 ^ e` times `10 ^ d`. -/
def scaled (m : Nat) (e d : Int) : Nat :=
  roundDiv (m * Nat.pow 2 e.toNat * Nat.pow 10 d.toNat) (Nat.pow 2 (-e).toNat * Nat.pow 10 (-d).toNat)

/-- A number in decimal digits, at least `n` of them. -/
def digits (n value : Nat) : String :=
  let text := toString value
  String.ofList (List.replicate (n - text.length) '0') ++ text

/-- Digits with a point in front of the last `places` of them. -/
def withPoint (places : Nat) (keepPoint : Bool) (value : Nat) : String :=
  let text := digits (places + 1) value
  let whole := text.length - places
  (text.take whole).toString ++ (if places = 0 && !keepPoint then "" else ".") ++
    (text.drop whole).toString

/-- Moves an estimate of the power of ten until the number has one digit in front of the point, in at
most `n` steps. -/
def leading (m : Nat) (e : Int) : (n : Nat) → Int → Int
  | 0, k => k
  | n + 1, k =>
    let isBelow (k : Int) : Bool :=
      m * Nat.pow 2 e.toNat * Nat.pow 10 (-k).toNat < Nat.pow 2 (-e).toNat * Nat.pow 10 k.toNat
    if isBelow k then leading m e n (k - 1)
    else if !isBelow (k + 1) then leading m e n (k + 1)
    else k

/-- The digits of a number of which `places` come after the first one, and the power of ten of that one.
-/
def significant (m : Nat) (e : Int) (places : Nat) : Nat × Int :=
  if m = 0 then (0, 0)
  else
    let k := leading m e 8 (((Nat.log2 m : Int) + e) * 30103 / 100000)
    let found := scaled m e (places - k)
    if Nat.pow 10 (places + 1) ≤ found then (scaled m e (places - k - 1), k + 1) else (found, k)

/-- A power of ten with a sign and at least two digits. -/
def powerText (k : Int) : String :=
  (if k < 0 then "-" else "+") ++ digits 2 k.natAbs

/-- A text without the zeros at its end, nor a point that stands there then. -/
def dropZeros (text : String) : String :=
  if !text.toList.contains '.' then text
  else
    let rest := text.toList.reverse.dropWhile (· = '0')
    String.ofList (if rest.head? = some '.' then rest.tail else rest).reverse

/-- The ways to write a number: with a fixed number of places, with a power of ten, or whichever of both
is shorter. -/
inductive Style where
  | fixed
  | power
  | shorter
deriving DecidableEq, Repr

/-- The size of a finite number as text. With `keepPoint` a point and zeros stand at the end, too. -/
def sizeText (style : Style) (precision : Nat) (keepPoint : Bool) (m : Nat) (e : Int) : String :=
  match style with
  | .fixed => withPoint precision keepPoint (scaled m e precision)
  | .power =>
    let (value, k) := significant m e precision
    withPoint precision keepPoint value ++ "e" ++ powerText k
  | .shorter =>
    let precision := max precision 1
    let (value, k) := significant m e (precision - 1)
    let strip (text : String) : String := if keepPoint then text else dropZeros text
    if -4 ≤ k && k < precision then
      let places := (precision - 1 - k).toNat
      strip (withPoint places keepPoint (scaled m e places))
    else strip (withPoint (precision - 1) keepPoint value) ++ "e" ++ powerText k

/-- The sign of a number and its size as text. -/
def texts (style : Style) (precision : Nat) (keepPoint : Bool) (x : Float) : Bool × String :=
  match parts x with
  | .finite isNegative m e => (isNegative, sizeText style precision keepPoint m e)
  | .infinite isNegative => (isNegative, "inf")
  | .notNumber isNegative => (isNegative, "nan")

/-- The number that a text begins with, an optional sign included, and the text after it. -/
def split? (text : List Char) : Option (Float × List Char) :=
  let (isNegative, body) := match text with
    | '-' :: rest => (true, rest)
    | '+' :: rest => (false, rest)
    | _ => (false, text)
  let signed (x : Float) : Float := if isNegative then -x else x
  let whole := body.takeWhile Char.isDigit
  let afterWhole := body.drop whole.length
  let (fraction, rest) := match afterWhole with
    | '.' :: after => (after.takeWhile Char.isDigit, after.dropWhile Char.isDigit)
    | _ => ([], afterWhole)
  if whole.isEmpty && fraction.isEmpty then
    let word := String.ofList (body.take 3 |>.map Char.toLower)
    if word = "inf" then some (signed (1.0 / 0.0), body.drop 3)
    else if word = "nan" then some (signed (0.0 / 0.0), body.drop 3)
    else none
  else
    let (power, rest) := match rest with
      | c :: after =>
        let (isDown, after) := match after with
          | '-' :: after => (true, after)
          | '+' :: after => (false, after)
          | _ => (false, after)
        let row := after.takeWhile Char.isDigit
        if (c = 'e' || c = 'E') && !row.isEmpty then
          let size := min ((String.ofList row).toNat?.getD 0) 5000
          ((if isDown then -(size : Int) else size), after.drop row.length)
        else (0, rest)
      | [] => (0, rest)
    let mantissa := ((String.ofList (whole ++ fraction)).toNat?.getD 0)
    let power := power - fraction.length
    some (signed (Float.ofScientific mantissa (power < 0) power.natAbs), rest)

end Rebuild.Floating
