import Rebuild.Shell.Tool.Select

/-!
# Sorting

Lines in order of keys. A key is a part of a line with the way in which it is compared; lines whose keys
are the same are compared byte by byte unless they are to stay in the order in which they came.
-/

namespace Rebuild.Shell.Tool

open Run

/-- A key of a line: the field and character where it begins, the field and character where it ends,
and the letters that tell how it is compared. -/
structure SortKey where
  fromField : Nat
  fromChar : Nat
  toField : Option Nat
  toChar : Nat
  fromLetters : List Char
  toLetters : List Char
deriving Repr

namespace SortKey

def letters (k : SortKey) : List Char := k.fromLetters ++ k.toLetters

/-- Reads a position: a field, a character, and letters. -/
def position? (text : List Char) : Option (Nat × Option Nat × List Char × List Char) :=
  let field := text.takeWhile Char.isDigit
  let rest := text.drop field.length
  let (char, rest) := match rest with
    | '.' :: rest => (some (rest.takeWhile Char.isDigit), rest.dropWhile Char.isDigit)
    | _ => (none, rest)
  let letters := rest.takeWhile fun c => "bdfghiMnrRV".toList.contains c
  (String.ofList field).toNat?.map fun field =>
    (field, char.bind fun c => (String.ofList c).toNat?, letters, rest.drop letters.length)

/-- Reads a key. -/
def ofText? (text : String) : Option SortKey := do
  let (field, char, letters, rest) ← position? text.toList
  if field = 0 then none
  match rest with
  | [] => return ⟨field - 1, char.getD 1 - 1, none, 0, letters, []⟩
  | ',' :: rest =>
    let (last, lastChar, lastLetters, rest) ← position? rest
    if last = 0 || !rest.isEmpty then none
    return ⟨field - 1, char.getD 1 - 1, some last, lastChar.getD 0, letters, lastLetters⟩
  | _ => none

end SortKey

def isTabOrSpace (c : Char) : Bool := c = ' ' || c = '\t' || c = '\n'

/-- The text after a number of fields. -/
def afterFields (separator : Option Char) : Nat → List Char → List Char
  | 0, text => text
  | n + 1, text => afterFields separator n (match separator with
    | some c => (text.dropWhile (· ≠ c)).drop 1
    | none => (text.dropWhile isTabOrSpace).dropWhile fun c => !isTabOrSpace c)

/-- How much of a text a number of fields takes, the separator after the last one apart. -/
def lengthOfFields (separator : Option Char) (fields : Nat) (text : List Char) : Nat :=
  match separator with
  | none => text.length - (afterFields none fields text).length
  | some c =>
    if fields = 0 then 0
    else
      let before := afterFields separator (fields - 1) text
      text.length - before.length + (before.takeWhile (· ≠ c)).length

/-- The part of a line that a key names. -/
def SortKey.part (k : SortKey) (separator : Option Char) (line : List Char) : List Char :=
  let start := afterFields separator k.fromField line
  let start := if k.fromLetters.contains 'b' then start.dropWhile isTabOrSpace else start
  let start := start.drop k.fromChar
  let from_ := line.length - start.length
  match k.toField with
  | none => start
  | some field =>
    let end_ := if k.toChar = 0 then lengthOfFields separator field line
      else
        let rest := afterFields separator (field - 1) line
        let rest := if k.toLetters.contains 'b' then rest.dropWhile isTabOrSpace else rest
        line.length - (rest.drop k.toChar).length
    start.take (end_ - from_)

/-- The number at the beginning of a text: its sign, the digits before and after its point, and the text
after it. -/
def leadingNumber (text : List Char) : Bool × List Char × List Char × List Char :=
  let text := text.dropWhile fun c => c = ' ' || c = '\t'
  let (isNegative, body) := match text with
    | '-' :: rest => (true, rest)
    | _ => (false, text)
  let whole := body.takeWhile Char.isDigit
  match body.drop whole.length with
  | '.' :: rest =>
    (isNegative, whole, rest.takeWhile Char.isDigit, rest.dropWhile Char.isDigit)
  | rest => (isNegative, whole, [], rest)

/-- A number with a given count of places, as a whole number of units of the last place. -/
def scaledNumber (places : Nat) (n : Bool × List Char × List Char × List Char) : Int :=
  let (isNegative, whole, fraction, _) := n
  let digits := whole ++ fraction ++ List.replicate (places - fraction.length) '0'
  let value : Int := ((String.ofList digits).toNat?.getD 0 : Nat)
  if isNegative then -value else value

/-- The order of two numbers. -/
def compareNumbers (a b : List Char) : Ordering :=
  let (x, y) := (leadingNumber a, leadingNumber b)
  let places := max x.2.2.1.length y.2.2.1.length
  compare (scaledNumber places x) (scaledNumber places y)

/-- The power of a unit after a number. -/
def unitPower (rest : List Char) : Nat :=
  match rest with
  | c :: _ => ((['K', 'M', 'G', 'T', 'P', 'E'].findIdx? (· = c.toUpper)).map (· + 1)).getD 0
  | [] => 0

/-- The order of two numbers with units. -/
def compareHuman (a b : List Char) : Ordering :=
  let (x, y) := (leadingNumber a, leadingNumber b)
  let rank (n : Bool × List Char × List Char × List Char) : Int :=
    let isZero := (n.2.1 ++ n.2.2.1).all (· = '0')
    if isZero then 0
    else
      let power : Int := unitPower n.2.2.2 + 1
      if n.1 then -power else power
  (compare (rank x) (rank y)).then (compareNumbers a b)

/-- The order of two floating-point numbers, before which stands what is none. -/
def compareGeneral (a b : List Char) : Ordering :=
  let value? (text : List Char) : Option Float :=
    (Floating.split? (text.dropWhile fun c => c = ' ' || c = '\t')).map (·.1)
  match value? a, value? b with
  | none, none => .eq
  | none, some _ => .lt
  | some _, none => .gt
  | some x, some y => if x < y then .lt else if y < x then .gt else .eq

/-- The number of the month that a text begins with. -/
def monthOf (text : List Char) : Nat :=
  let name := (String.ofList ((text.dropWhile isTabOrSpace).take 3)).toLower
  ((Date.monthNames.findIdx? fun m => (m.take 3).toString.toLower = name).map (· + 1)).getD 0

/-- The order of two versions, in which rows of digits count as numbers, in at most `n` steps. -/
def compareVersions : (n : Nat) → List Char → List Char → Ordering
  | 0, _, _ => .eq
  | _, [], [] => .eq
  | n + 1, a, b =>
    let rank (text : List Char) : Int := match text with
      | [] => 0
      | '~' :: _ => -1
      | c :: _ => if c.isDigit then 0 else if c.isAlpha then c.toNat else c.toNat + 256
    let (x, y) := (rank a, rank b)
    if x ≠ 0 || y ≠ 0 then
      (compare x y).then (compareVersions n a.tail b.tail)
    else
      let (p, q) := (a.takeWhile Char.isDigit, b.takeWhile Char.isDigit)
      let value (digits : List Char) : Nat := (String.ofList digits).toNat?.getD 0
      (compare (value p) (value q)).then
        (if p.isEmpty && q.isEmpty then .eq
          else compareVersions n (a.drop p.length) (b.drop q.length))

/-- The order of two parts of lines. -/
def compareParts (letters : List Char) (a b : List Char) : Ordering :=
  let has (c : Char) : Bool := letters.contains c
  let plain (text : List Char) : List Char :=
    let text := if has 'd' then text.filter fun c => c.isAlphanum || c = ' ' || c = '\t' else text
    let text := if has 'i' then text.filter fun c => ' ' ≤ c && c ≤ '~' else text
    if has 'f' then text.map Char.toUpper else text
  let order :=
    if has 'n' then compareNumbers a b
    else if has 'g' then compareGeneral a b
    else if has 'h' then compareHuman a b
    else if has 'M' then compare (monthOf a) (monthOf b)
    else if has 'V' then
      (compareVersions (a.length + b.length + 1) a b).then
        (compare (String.ofList a) (String.ofList b))
    else compare (String.ofList (plain a)) (String.ofList (plain b))
  if has 'r' then order.swap else order

/-- The order of two lines by their keys alone. -/
def compareKeys (keys : List SortKey) (separator : Option Char) (a b : List Char) : Ordering :=
  keys.foldl (fun order k =>
    order.then (compareParts k.letters (k.part separator a) (k.part separator b))) .eq

/-- Lines of which none has the same keys as the one before. -/
def withoutRepeats (isSame : List Char → List Char → Bool) : List (List Char) → List (List Char)
  | a :: b :: rest =>
    if isSame a b then withoutRepeats isSame (a :: rest) else a :: withoutRepeats isSame (b :: rest)
  | rest => rest
termination_by lines => lines.length

/-- The number of the first line that is not in order, with the line. -/
def findDisorder (isGood : List Char → List Char → Bool) : (n : Nat) → List (List Char) →
    Option (Nat × List Char)
  | n, a :: b :: rest => if isGood a b then findDisorder isGood (n + 1) (b :: rest) else some (n + 1, b)
  | _, _ => none

def sort : Tool := fun _ words => do
  let table := OptionTable.of "bcCdfghik:mMno:rRsS:t:T:uVz"
    [("ignore-leading-blanks", 'b'), ("dictionary-order", 'd'), ("ignore-case", 'f'),
      ("general-numeric-sort", 'g'), ("ignore-nonprinting", 'i'), ("month-sort", 'M'),
      ("human-numeric-sort", 'h'), ("numeric-sort", 'n'), ("reverse", 'r'), ("version-sort", 'V'),
      ("check=", 'c'), ("key:", 'k'), ("merge", 'm'), ("output:", 'o'), ("stable", 's'),
      ("buffer-size:", 'S'), ("field-separator:", 't'), ("temporary-directory:", 'T'), ("unique", 'u'),
      ("zero-terminated", 'z'), ("parallel:", 'S'), ("random-sort", 'R')]
  let given ← readOptions 2 table true words
  let overall := "bdfghiMnrRV".toList.filter given.has
  let separator ← match given.find? 't' with
    | none => pure none
    | some text =>
      if text = "\\0" then pure (some '\x00')
      else if text = "" then toolFault 2 "empty tab"
      else if 1 < text.length then toolFault 2 ("multi-character tab " ++ quote text)
      else pure text.toList.head?
  let texts := (given.options.filter (·.1 = 'k')).map (·.2)
  let keys ← texts.mapM fun text => do
    match SortKey.ofText? text with
    | some k =>
      return if k.letters.isEmpty then { k with fromLetters := overall, toLetters := overall } else k
    | none =>
      match text.toList.head? with
      | some c =>
        if c.isDigit then toolFault 2 ("field number is zero: invalid field specification " ++ quote text)
        else toolFault 2 ("invalid number at field start: invalid count at start of " ++ quote text)
      | none => toolFault 2 ("invalid number at field start: invalid count at start of " ++ quote text)
  let keys := if keys.isEmpty then [⟨0, 0, none, 0, overall, []⟩] else keys
  let paths := if given.operands.isEmpty then ["-"] else given.operands
  let ending := if given.has 'z' then '\x00' else '\n'
  let found ← paths.mapM fun path => do
    match ← readOperand path with
    | .ok text => return text
    | .error fault =>
      let action := if fault = .isDirectory then "read failed: " else "cannot read: "
      toolFault 2 (action ++ path ++ ": " ++ fault.message)
  let lines := found.flatMap fun text => (Lines.cut false ending [] text).map String.toList
  let byKeys := compareKeys keys separator
  let isStable := given.has 's' || given.has 'u'
  let order (a b : List Char) : Ordering :=
    let first := byKeys a b
    if isStable then first
    else
      let last := compare (String.ofList a) (String.ofList b)
      first.then (if given.has 'r' then last.swap else last)
  if given.has 'c' || given.has 'C' then
    let isGood (a b : List Char) : Bool :=
      if given.has 'u' then byKeys a b = .lt else order a b ≠ .gt
    match findDisorder isGood 1 lines with
    | none => return 0
    | some (n, line) =>
      if !given.has 'C' && given.find? 'c' ≠ some "silent" && given.find? 'c' ≠ some "quiet" then
        complainAsTool (paths.headD "-" ++ ":" ++ toString n ++ ": disorder: " ++ String.ofList line)
      return 1
  let sorted := lines.mergeSort fun a b => order a b ≠ .gt
  let kept := if given.has 'u' then withoutRepeats (fun a b => byKeys a b = .eq) sorted else sorted
  let text := String.join (kept.map fun line => String.ofList (line ++ [ending]))
  if let some path := given.find? 'o' then
    let mode ← newMode 0o666
    match ← openPath path ⟨some mode, true⟩ false with
    | .ok id => setDescriptor 1 (some id)
    | .error fault => toolFault 2 ("open failed: " ++ path ++ ": " ++ fault.message)
  let status ← print text
  return if status = 0 then 0 else 2

end Rebuild.Shell.Tool
