/-!
# Numerals

Unsigned numbers as they are written in files and on the command line. A numeral is a non-empty run
of digits of the base, of either case, after an optional plus sign, and has to stay within 64 bits.
Numbers are written without sign or leading zeros, in lower case.
-/

namespace Rebuild.Numeral

/-- The value of a digit, for bases up to sixteen. -/
def digit? (base : Nat) (c : Char) : Option Nat :=
  let value? :=
    if '0' ≤ c ∧ c ≤ '9' then some (c.toNat - '0'.toNat)
    else if 'a' ≤ c ∧ c ≤ 'f' then some (c.toNat - 'a'.toNat + 10)
    else if 'A' ≤ c ∧ c ≤ 'F' then some (c.toNat - 'A'.toNat + 10)
    else none
  value?.filter (· < base)

/-- The value of a run of digits that continues a number with value `value`. -/
def digits? (base : Nat) : (value : Nat) → List Char → Option Nat
  | value, [] => some value
  | value, c :: rest => (digit? base c).bind fun d => digits? base (value * base + d) rest

/-- Reads a numeral of the base, whatever its size. -/
def natural? (base : Nat) (text : List Char) : Option Nat :=
  let body := match text with
    | '+' :: rest => rest
    | _ => text
  if body.isEmpty then none else digits? base 0 body

/-- Reads a numeral of the base that fits 64 bits. -/
def word? (base : Nat) (text : List Char) : Option UInt64 :=
  ((natural? base text).filter (· < Nat.pow 2 64)).map UInt64.ofNat

/-- Writes a number in decimal. -/
def decimal (n : Nat) : List Char :=
  Nat.toDigits 10 n

/-- Writes a number in hexadecimal. -/
def hexadecimal (n : Nat) : List Char :=
  Nat.toDigits 16 n

end Rebuild.Numeral
