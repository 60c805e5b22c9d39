import Rebuild.Shell.Tool.Columns
import Rebuild.Text.Format
import Rebuild.Text.Regex.Reading

/-!
# Tools for numbers

`seq` counts, `expr` computes, and `factor` takes numbers apart.
-/

namespace Rebuild.Shell.Tool

open Run

/-! ## Counting -/

/-- A decimal number as it was written: `value` divided by a power of ten, and its width. A number that
is not finite has no value. -/
structure Decimal where
  value : Option Int
  places : Nat
  width : Nat
  isNegative : Bool
deriving Repr

namespace Decimal

/-- Reads a number. -/
def ofText? (text : String) : Option Decimal :=
  let chars := text.toList.dropWhile fun c => CharClass.has "space" c
  let width := chars.length
  let (isNegative, body, width) := match chars with
    | '-' :: rest => (true, rest, width)
    | '+' :: rest => (false, rest, width - 1)
    | _ => (false, chars, width)
  let signed (n : Nat) : Int := if isNegative then -n else n
  match body with
  | ['i', 'n', 'f'] => some ⟨none, 0, width, isNegative⟩
  | '0' :: x :: rest =>
    if (x = 'x' || x = 'X') && !rest.isEmpty then
      (Numeral.digits? 16 0 rest).map fun n => ⟨some (signed n), 0, width, isNegative⟩
    else decimal? signed isNegative width body
  | _ => decimal? signed isNegative width body
where
  decimal? (signed : Nat → Int) (isNegative : Bool) (width : Nat) (body : List Char) :
      Option Decimal :=
    let whole := body.takeWhile Char.isDigit
    let rest := body.drop whole.length
    let (fraction, rest) := match rest with
      | '.' :: rest => (rest.takeWhile Char.isDigit, rest.dropWhile Char.isDigit)
      | _ => ([], rest)
    if whole.isEmpty && fraction.isEmpty then none
    else
      let n := (String.ofList (whole ++ fraction)).toNat?.getD 0
      let width := if whole.isEmpty then width + 1 else width
      match rest with
      | [] => some ⟨some (signed n), fraction.length, width, isNegative⟩
      | e :: rest =>
        if e = 'e' || e = 'E' then
          (String.ofList rest).toInt?.map fun power =>
            let places : Int := fraction.length - power
            ⟨some (signed n * Int.pow 10 (-places).toNat), places.toNat, width, isNegative⟩
        else none

/-- The value in units of a power of ten. -/
def inUnits (d : Decimal) (places : Nat) : Option Int :=
  d.value.map (· * Int.pow 10 (places - d.places))

end Decimal

/-- A number of units as text. -/
def decimalText (places : Nat) (isNegativeZero : Bool) (value : Int) : String :=
  (if value < 0 || isNegativeZero then "-" else "") ++ Floating.withPoint places false value.natAbs

/-- A number with zeros in front of it up to a width. -/
def zeroFilled (width : Nat) (text : String) : String :=
  let zeros := String.ofList (List.replicate (width - text.length) '0')
  if text.startsWith "-" then "-" ++ zeros ++ (text.drop 1).toString else zeros ++ text

/-- What stands around a conversion in a format, with the conversion. -/
structure NumberFormat where
  before : String
  conversion : Format.Conversion
  after : String

/-- A text in which two percent signs in a row stand for one, up to a conversion, with the text after
it. -/
def beforeConversion : List Char → List Char × Option (List Char)
  | '%' :: '%' :: rest =>
    let (text, conversion) := beforeConversion rest
    ('%' :: text, conversion)
  | '%' :: rest => ([], some rest)
  | c :: rest =>
    let (text, conversion) := beforeConversion rest
    (c :: text, conversion)
  | [] => ([], none)

/-- Reads a format for numbers. -/
def NumberFormat.ofText (text : String) : Except String NumberFormat := do
  let name := "format " ++ Run.quote text
  let (before, rest) := beforeConversion text.toList
  let some rest := rest | throw (name ++ " has no % directive")
  let some (conversion, rest) := Format.conversion? rest | throw (name ++ " ends in %")
  if !"aefgAEFG".toList.contains conversion.kind then
    throw (name ++ " has unknown %" ++ String.singleton conversion.kind ++ " directive")
  let (after, more) := beforeConversion rest
  if more.isSome then throw (name ++ " has too many % directives")
  return ⟨String.ofList before, conversion, String.ofList after⟩

/-- Prints numbers from one on, at most `n` of them, with what stands between them. What is not printed yet
is gathered, the last of it first. -/
def countOn (shown : Nat → Int → String) (step : Int) (last : Option Int) (separator : String) :
    (n i : Nat) → (value : Int) → (gathered : List String) → (size : Nat) → Run Unit
  | 0, _, _, gathered, _ => say (String.join gathered.reverse)
  | n + 1, i, value, gathered, size => do
    if last.any fun last => if 0 < step then last < value else value < last then
      say (String.join (("\n" :: gathered).reverse))
    else
      let text := shown i value
      let gathered := text :: (if i = 0 then gathered else separator :: gathered)
      let size := size + text.length
      if 4096 < size then
        say (String.join gathered.reverse)
        countOn shown step last separator n (i + 1) (value + step) [] 0
      else countOn shown step last separator n (i + 1) (value + step) gathered size

/-- Whether a word is a number below zero. -/
def isNegativeNumber (word : String) : Bool :=
  word.startsWith "-" && ((word.toList[1]?).any fun c => c.isDigit || c = '.')

/-- Words with a mark where the options end, which a number below zero does. -/
def withMark : List String → List String
  | [] => []
  | word :: rest =>
    if word = "--" || !word.startsWith "-" then word :: rest
    else if isNegativeNumber word then "--" :: word :: rest
    else if word = "-s" || word = "-f" then
      match rest with
      | argument :: rest => word :: argument :: withMark rest
      | [] => [word]
    else word :: withMark rest

/-- Counts. -/
def seq : Tool := fun _ words => do
  let table := OptionTable.of "f:s:w" [("format:", 'f'), ("separator:", 's'), ("equal-width", 'w')]
  let given ← readOptions 1 table false (withMark words)
  let number (word : String) : Run Decimal := do
    match Decimal.ofText? word with
    | some d => return d
    | none => usageFault 1 ("invalid floating point argument: " ++ quote word)
  let one : Decimal := ⟨some 1, 0, 1, false⟩
  let (first, step, last) ← match given.operands with
    | [] => usageFault 1 "missing operand"
    | [last] => do pure (one, one, ← number last)
    | [first, last] => do pure (← number first, one, ← number last)
    | [first, step, last] => do
      let found := (← number first, ← number step, ← number last)
      if found.2.1.value = some 0 then
        usageFault 1 ("invalid Zero increment value: " ++ quote step)
      pure found
    | _ :: _ :: _ :: extra :: _ => usageFault 1 ("extra operand " ++ quote extra)
  let format ← match given.find? 'f' with
    | none => pure none
    | some text =>
      match NumberFormat.ofText text with
      | .ok format => pure (some format)
      | .error fault => toolFault 1 fault
  let places := max first.places step.places
  let units := max places last.places
  let point (n : Nat) : Nat := if 0 < n then 1 else 0
  let widthOf (d : Decimal) : Nat := d.width + places + point places - d.places - point d.places
  let width := if given.has 'w' then max (widthOf first) (widthOf last) else 0
  let shown (i : Nat) (value : Int) : String :=
    match format with
    | some f =>
      let x := Float.ofScientific value.natAbs true units
      f.before ++ f.conversion.float (if value < 0 then -x else x) ++ f.after
    | none =>
      let isNegativeZero := i = 0 && value = 0 && first.isNegative
      zeroFilled width
        (decimalText places isNegativeZero (Int.tdiv value (Int.pow 10 (units - places))))
  let start := (first.inUnits units).getD 0
  let stepSize := (step.inUnits units).getD 1
  let stop := last.inUnits units
  if stop.any fun stop => if 0 < stepSize then stop < start else start < stop then return 0
  countOn shown stepSize stop ((given.find? 's').getD "\n") 1000000000 0 start [] 0
  return 0

/-! ## Computing -/

/-- The number that a text writes, if it writes a whole one. -/
def integer? (text : String) : Option Int :=
  match text.toList with
  | '-' :: digits =>
    if digits.isEmpty || !digits.all Char.isDigit then none
    else (String.ofList digits).toNat?.map fun n => -n
  | digits =>
    if digits.isEmpty || !digits.all Char.isDigit then none
    else (String.ofList digits).toNat?.map fun n => n

/-- Whether a text counts as false. -/
def isNull (text : String) : Bool :=
  text = "" || integer? text = some 0

/-- How an expression matches the beginning of a text: the text of the first group, or the length. -/
def matchBeginning (text pattern : String) : Except String String :=
  let dialect := { RegexDialect.basic with isStrict := true }
  match Regex.read dialect pattern.toList with
  | .error fault => .error fault.message
  | .ok regex =>
    let t : Subject := ⟨text.toList.toArray, false, false⟩
    let found := regex.matchAt? t 0
    if 0 < regex.groupCount then
      .ok (match found.bind (·.part? 1) with
        | some (i, j) => String.ofList (t.slice i j)
        | none => "")
    else .ok (toString ((found.map (·.stop)).getD 0))

/-- What an operator makes of two values. -/
def operate (operator left right : String) : Except String String := do
  let truth (b : Bool) : String := if b then "1" else "0"
  let numbers : Except String (Int × Int) :=
    match integer? left, integer? right with
    | some a, some b => .ok (a, b)
    | _, _ => .error "non-integer argument"
  let compare (onNumbers : Int → Int → Bool) (onTexts : String → String → Bool) : String :=
    match integer? left, integer? right with
    | some a, some b => truth (onNumbers a b)
    | _, _ => truth (onTexts left right)
  match operator with
  | "|" => return if !isNull left then left else if !isNull right then right else "0"
  | "&" => return if isNull left || isNull right then "0" else left
  | "<" => return compare (· < ·) (· < ·)
  | "<=" => return compare (· ≤ ·) (· ≤ ·)
  | "=" | "==" => return compare (· == ·) (· == ·)
  | "!=" => return compare (· != ·) (· != ·)
  | ">=" => return compare (· ≥ ·) (· ≥ ·)
  | ">" => return compare (· > ·) (· > ·)
  | "+" =>
    let (a, b) ← numbers
    return toString (a + b)
  | "-" =>
    let (a, b) ← numbers
    return toString (a - b)
  | "*" =>
    let (a, b) ← numbers
    return toString (a * b)
  | "/" =>
    let (a, b) ← numbers
    if b = 0 then throw "division by zero"
    return toString (Int.tdiv a b)
  | "%" =>
    let (a, b) ← numbers
    if b = 0 then throw "division by zero"
    return toString (Int.tmod a b)
  | _ => matchBeginning left right

/-- The operators of each level, those that bind least first. -/
def operators : Nat → List String
  | 0 => ["|"]
  | 1 => ["&"]
  | 2 => ["<", "<=", "=", "==", "!=", ">=", ">"]
  | 3 => ["+", "-"]
  | 4 => ["*", "/", "%"]
  | _ => [":"]

/-- How many levels of operators there are. -/
def levels : Nat := 6

/-- The fault of words that end after a word. -/
def missingAfter (word : String) : String :=
  "syntax error: missing argument after " ++ Run.quote word

mutual

/-- Computes an expression in at most `n` steps, with the operators of a level and those that bind
tighter, after a word. Without `evaluates` it is only read. -/
def compute : (n level : Nat) → (evaluates : Bool) → (before : String) → List String →
    Except String (String × String × List String)
  | 0, _, _, before, _ => .error (missingAfter before)
  | n + 1, level, evaluates, before, words =>
    if level < levels then do
      let (left, before, rest) ← compute n (level + 1) evaluates before words
      computeOn n level evaluates left before rest
    else
      let operands (count : Nat) (word : String) (rest : List String) :
          Except String (List String × String × List String) := do
        (List.range count).foldlM (fun (found, before, rest) _ => do
          let (value, before, rest) ← compute n levels evaluates before rest
          return (found ++ [value], before, rest)) ([], word, rest)
      match words with
      | [] => .error (missingAfter before)
      | "+" :: word :: rest => .ok (word, word, rest)
      | ["+"] => .error (missingAfter "+")
      | "match" :: rest => do
        let (values, before, rest) ← operands 2 "match" rest
        let value ← if evaluates then matchBeginning (values.headD "") (values.getD 1 "") else pure ""
        return (value, before, rest)
      | "length" :: rest => do
        let (values, before, rest) ← operands 1 "length" rest
        return (toString (values.headD "").length, before, rest)
      | "index" :: rest => do
        let (values, before, rest) ← operands 2 "index" rest
        let found := (values.headD "").toList.findIdx? fun c => (values.getD 1 "").contains c
        return (toString ((found.map (· + 1)).getD 0), before, rest)
      | "substr" :: rest => do
        let (values, before, rest) ← operands 3 "substr" rest
        let value := match integer? (values.getD 1 ""), integer? (values.getD 2 "") with
          | some start, some length =>
            if start ≤ 0 || length ≤ 0 then ""
            else (((values.headD "").drop (start.toNat - 1)).take length.toNat).toString
          | _, _ => ""
        return (value, before, rest)
      | "(" :: rest => do
        let (value, before, rest) ← compute n 0 evaluates "(" rest
        match rest with
        | ")" :: rest => return (value, ")", rest)
        | [] => throw ("syntax error: expecting ')' after " ++ Run.quote before)
        | word :: _ => throw ("syntax error: expecting ')' instead of " ++ Run.quote word)
      | ")" :: _ => .error "syntax error: unexpected ')'"
      | word :: rest => .ok (word, word, rest)
termination_by structural n => n

/-- Goes on computing with the operators of a level after a value. -/
def computeOn : (n level : Nat) → (evaluates : Bool) → (left before : String) → List String →
    Except String (String × String × List String)
  | 0, _, _, left, before, rest => .ok (left, before, rest)
  | n + 1, level, evaluates, left, before, words =>
    match words with
    | word :: rest =>
      if (operators level).contains word then do
        let needsRight := !(word = "|" && !isNull left) && !(word = "&" && isNull left)
        let (right, before, rest) ← compute n (level + 1) (evaluates && needsRight) word rest
        let value ← if evaluates then
            if needsRight then operate word left right else operate word left left
          else pure left
        computeOn n level evaluates value before rest
      else .ok (left, before, words)
    | [] => .ok (left, before, [])
termination_by structural n => n

end

/-- Computes an expression. -/
def expr : Tool := fun _ words => do
  let words := if words.head? = some "--" then words.tail else words
  if words.isEmpty then usageFault 2 "missing operand"
  match compute (20 * words.length + 20) 0 true "" words with
  | .error fault => toolFault 2 fault
  | .ok (value, _, []) =>
    say (value ++ "\n")
    return if isNull value then 1 else 0
  | .ok (_, _, word :: _) => toolFault 2 ("syntax error: unexpected argument " ++ quote word)

/-! ## Factors -/

/-- The prime factors of a number from a candidate on, in at most `n` steps. -/
def factorsFrom : (n candidate m : Nat) → List Nat
  | 0, _, m => if 1 < m then [m] else []
  | n + 1, d, m =>
    if m < d * d then if 1 < m then [m] else []
    else if m % d = 0 then d :: factorsFrom n d (m / d)
    else factorsFrom n (if d = 2 then 3 else d + 2) m

/-- The prime factors of a number. What is left after ten million candidates counts as prime. -/
def factorsOf (m : Nat) : List Nat :=
  factorsFrom (min 10000000 (Nat.pow 2 (Nat.log2 m / 2 + 1) + Nat.log2 m + 2)) 2 m

/-- Takes numbers apart. -/
def factor : Tool := fun _ words => do
  let given ← readOptions 1 (OptionTable.of "h" [("exponents", 'h')]) true words
  let words ← if !given.operands.isEmpty then pure given.operands
    else do
      let text := (← readOperand "-").toOption.getD []
      pure ((String.ofList text).splitToList fun c => CharClass.has "space" c)
  forEach (words.filter (· ≠ "" || !given.operands.isEmpty)) fun word => do
    let word := if word.startsWith "+" then (word.drop 1).toString else word
    match number? word with
    | some m =>
      say (toString m ++ ":" ++ String.join ((factorsOf m).map fun d => " " ++ toString d) ++ "\n")
      return true
    | none =>
      complainAsTool (quote word ++ " is not a valid positive integer")
      return false

end Rebuild.Shell.Tool
