import Rebuild.Shell.Tool.Select
import Rebuild.Text.CharClass
import Rebuild.Text.Numeral

/-!
# Tools that work inside lines

Tools that take parts of lines, put lines side by side, exchange characters, and move text to columns.
-/

namespace Rebuild.Shell.Tool

open Run

/-! ## Parts of lines -/

/-- A part of a list that counts from 1: from a number to a number, or to the end. -/
structure Span where
  low : Nat
  high : Option Nat
deriving DecidableEq, Repr

namespace Span

def has (s : Span) (n : Nat) : Bool :=
  s.low ≤ n && s.high.all (n ≤ ·)

/-- Reads a span, or tells why it makes no sense. The flag tells whether the span counts fields. -/
def ofText (fields : Bool) (text : String) : Except String Span := do
  let chars := text.toList
  let fromOne := (if fields then "fields" else "byte/character positions") ++ " are numbered from 1"
  let number (digits : List Char) : Except String Nat := do
    let row := digits.takeWhile Char.isDigit
    if row.length < digits.length then
      throw ((if fields then "invalid field value " else "invalid byte/character position ") ++
        Run.quote (String.ofList (digits.drop row.length)))
    let n := (String.ofList row).toNat?.getD 0
    if n = 0 then throw fromOne
    if Nat.pow 2 64 - 1 ≤ n then
      throw ((if fields then "field number " else "byte/character offset ") ++
        Run.quote (String.ofList row) ++ " is too large")
    return n
  let first := chars.takeWhile (· ≠ '-')
  match chars.drop first.length with
  | [] => do
    let n ← number first
    return ⟨n, some n⟩
  | _ :: last => do
    if last.contains '-' then
      throw (if fields then "invalid field range" else "invalid byte or character range")
    if first.isEmpty && last.isEmpty then throw "invalid range with no endpoint: -"
    let low ← if first.isEmpty then pure 1 else number first
    if last.isEmpty then return ⟨low, none⟩
    let high ← number last
    if high < low then throw "invalid decreasing range"
    return ⟨low, some high⟩

/-- Reads a list of spans. -/
def listOf (fields : Bool) (text : String) : Except String (List Span) :=
  (text.splitToList fun c => c = ',' || c = ' ' || c = '\t').mapM (ofText fields)

/-- Whether one of some spans begins at a number, and whether none goes on over it. -/
def beginsAt (spans : List Span) (n : Nat) : Bool :=
  spans.any (·.low = n) && !spans.any fun s => s.low < n && s.has n

end Span

/-- The parts of a line that spans take, with a glue between those that are not in a row. -/
def cutBytes (spans : List Span) (isInverted : Bool) (glue : String) (line : List Char) : String :=
  let taken (n : Nat) : Bool := spans.any (·.has n) != isInverted
  let begins (n : Nat) : Bool := taken n &&
    (if isInverted then !taken (n - 1) || n = 1 else Span.beginsAt spans n)
  let (shown, _) := line.zipIdx.foldl (fun (shown, isFirst) (c, i) =>
    if taken (i + 1) then
      let shown := if begins (i + 1) && !isFirst then glue.toList.reverse ++ shown else shown
      (c :: shown, false)
    else (shown, isFirst)) (([] : List Char), true)
  String.ofList shown.reverse

/-- The fields of a line that spans take. -/
def cutFields (given : Given) (spans : List Span) (separator : Char) (glue : String) (line : String) :
    Option String :=
  let fields := line.splitOn (String.singleton separator)
  if fields.length = 1 then if given.has 's' then none else some line
  else
    let taken := fields.zipIdx.filterMap fun (field, i) =>
      if spans.any (·.has (i + 1)) != given.has '!' then some field else none
    some (glue.intercalate taken)

/-- Takes parts of each line. -/
def cut : Tool := fun _ words => do
  let table := OptionTable.of "b:c:d:f:nsz" [("bytes:", 'b'), ("characters:", 'c'), ("delimiter:", 'd'),
    ("fields:", 'f'), ("only-delimited", 's'), ("zero-terminated", 'z'), ("complement", '!'),
    ("output-delimiter:", 'o')]
  let given ← readOptions 1 table true words
  let lists := given.options.filter fun (c, _) => c = 'b' || c = 'c' || c = 'f'
  let separator := (given.find? 'd').map (·.toList)
  if 1 < lists.length then usageFault 1 "only one list may be specified"
  if separator.any fun cs => 1 < cs.length then
    usageFault 1 "the delimiter must be a single character"
  match lists with
  | [] => usageFault 1 "you must specify a list of bytes, characters, or fields"
  | (way, text) :: _ =>
    if way ≠ 'f' then
      if separator.isSome then
        usageFault 1 "an input delimiter may be specified only when operating on fields"
      if given.has 's' then
        usageFault 1 "suppressing non-delimited lines makes sense\n\tonly when operating on fields"
    let spans ← match Span.listOf (way = 'f') text with
      | .ok spans => pure spans
      | .error fault => usageFault 1 fault
    let ending := if given.has 'z' then '\x00' else '\n'
    let sep := (separator.map fun cs => cs.headD '\x00').getD '\t'
    let glue := (given.find? 'o').getD (if way = 'f' then String.singleton sep else "")
    let (found, status) ← readOperands given.operands
    let lines := found.flatMap fun (_, text) => Lines.cut false ending [] text
    let shown := lines.filterMap fun line =>
      if way = 'f' then cutFields given spans sep glue line
      else some (cutBytes spans (given.has '!') glue line.toList)
    return max status (← print (String.join (shown.map fun line => line.push ending)))

/-! ## Lines side by side -/

/-- The characters that a list of separators names, none for one that is empty. -/
def separators? : List Char → Option (List (Option Char))
  | [] => some []
  | ['\\'] => none
  | '\\' :: c :: rest => (separators? rest).map (· |> List.cons (match c with
    | '0' => none
    | 'n' => some '\n'
    | 't' => some '\t'
    | 'b' => some '\x08'
    | 'f' => some '\x0c'
    | 'r' => some '\r'
    | 'v' => some '\x0b'
    | c => some c))
  | c :: rest => (separators? rest).map (some c :: ·)

/-- Texts with separators in turn between them. -/
def glued (separators : List (Option Char)) (texts : List String) : String :=
  match texts with
  | [] => ""
  | first :: rest => first ++ String.join (rest.zipIdx.map fun (text, i) =>
      let separator := (separators[i % max separators.length 1]?).getD none
      (separator.map String.singleton).getD "" ++ text)

/-- Takes the next line of each of some texts, which stand under keys. -/
def nextOfEach (keys : List Nat) (texts : List (Nat × List String)) :
    List (Option String) × List (Nat × List String) :=
  keys.foldl (fun (found, texts) key =>
    match (texts.lookup key).getD [] with
    | [] => (found ++ [none], texts)
    | line :: rest => (found ++ [some line], (key, rest) :: texts.filter (·.1 ≠ key))) ([], texts)

/-- Lines of several texts side by side, `n` of them at most. -/
def pasteWithin (separators : List (Option Char)) (keys : List Nat) :
    (n : Nat) → List (Nat × List String) → List String
  | 0, _ => []
  | n + 1, texts =>
    let (found, texts) := nextOfEach keys texts
    if found.all (·.isNone) then []
    else glued separators (found.map (·.getD "")) :: pasteWithin separators keys n texts

/-- Puts lines side by side. -/
def paste : Tool := fun _ words => do
  let table := OptionTable.of "d:sz" [("delimiters:", 'd'), ("serial", 's'), ("zero-terminated", 'z')]
  let given ← readOptions 1 table true words
  let list := (given.find? 'd').getD "\t"
  let some separators := separators? list.toList
    | toolFault 1 ("delimiter list ends with an unescaped backslash: " ++ list)
  let ending := if given.has 'z' then '\x00' else '\n'
  let names := if given.operands.isEmpty then ["-"] else given.operands
  if given.has 's' then
    forEach names fun name => do
      match ← readOperand name with
      | .ok text =>
        say ((glued separators (Lines.cut false ending [] text)).push ending)
        return true
      | .error fault =>
        complainOf name fault
        return false
  else
    let keys := names.zipIdx.map fun (name, i) => if name = "-" then names.idxOf name else i
    let texts ← names.zipIdx.mapM fun (name, i) => do
      match ← readOperand name with
      | .ok text => return (i, Lines.cut false ending [] text)
      | .error fault =>
        complainOf name fault
        exit 1
    let count := (texts.map (·.2.length)).foldl (· + ·) 0 + 1
    print (String.join ((pasteWithin separators keys count texts).map (·.push ending)))

/-! ## Exchanging characters -/

/-- A part of a set of characters: characters in a row, a class of letters of one case, or a character
that fills up what is missing. -/
inductive SetPart where
  | chars (chars : List Char)
  | named (name : String)
  | same (c : Char)
  | fill (c : Char)
deriving DecidableEq, Repr

/-- Characters with their meaning: whether each was escaped. -/
abbrev Marked := List (Char × Bool)

/-- Text with its escapes replaced, and whether it ends with an escape. -/
def unescape : List Char → Marked × Bool
  | [] => ([], false)
  | ['\\'] => ([('\\', false)], true)
  | '\\' :: c :: rest =>
    let simple (d : Char) : Marked × Bool :=
      let (others, isOpen) := unescape rest
      ((d, true) :: others, isOpen)
    match c with
    | 'a' => simple '\x07'
    | 'b' => simple '\x08'
    | 'f' => simple '\x0c'
    | 'n' => simple '\n'
    | 'r' => simple '\r'
    | 't' => simple '\t'
    | 'v' => simple '\x0b'
    | _ =>
      match Numeral.digit? 8 c with
      | none => simple c
      | some d =>
        match rest with
        | c₂ :: c₃ :: more =>
          match Numeral.digit? 8 c₂, Numeral.digit? 8 c₃ with
          | some e, some f =>
            if d * 64 + e * 8 + f < 256 then
              let (others, isOpen) := unescape more
              ((Char.ofNat (d * 64 + e * 8 + f), true) :: others, isOpen)
            else
              let (others, isOpen) := unescape (c₃ :: more)
              ((Char.ofNat (d * 8 + e), true) :: others, isOpen)
          | some e, none =>
            let (others, isOpen) := unescape (c₃ :: more)
            ((Char.ofNat (d * 8 + e), true) :: others, isOpen)
          | none, _ => simple (Char.ofNat d)
        | [c₂] =>
          match Numeral.digit? 8 c₂ with
          | some e => ([(Char.ofNat (d * 8 + e), true)], false)
          | none => simple (Char.ofNat d)
        | [] => simple (Char.ofNat d)
  | c :: rest =>
    let (others, isOpen) := unescape rest
    ((c, false) :: others, isOpen)
termination_by text => text.length

/-- What stands before a mark and a closing bracket, and what comes after it. -/
def beforeClosing (mark : Char) : Marked → Option (List Char × Marked)
  | (c, e) :: (d, e') :: rest =>
    if c = mark && d = ']' && !e && !e' then some ([], rest)
    else (beforeClosing mark ((d, e') :: rest)).map fun (text, after) => (c :: text, after)
  | _ => none

/-- Reads a repeated character after the bracket: the character, how often it stands there, and what
comes after it. -/
def repeated? (text : Marked) : Except String (Option (Char × Nat × Marked)) :=
  match text with
  | (c, _) :: ('*', false) :: rest =>
    let digits := rest.takeWhile fun m => m ≠ (']', false)
    match rest.drop digits.length with
    | [] => .ok none
    | _ :: after =>
      let row := digits.map (·.1)
      if row.isEmpty then .ok (some (c, 0, after))
      else
        match Numeral.digits? (if row.head? = some '0' then 8 else 10) 0 row with
        | some n => .ok (some (c, n, after))
        | none => .error ("invalid repeat count " ++ Run.quote (String.ofList row) ++
            " in [c*n] construct")
  | _ => .ok none

/-- Whether a repeated character without its own character begins here. -/
def looksRepeated (text : Marked) : Bool :=
  match text with
  | ('*', false) :: rest =>
    match rest.dropWhile fun (c, _) => c.isDigit with
    | (']', false) :: _ => true
    | _ => false
  | _ => false

/-- The number whose decimal digits are the octal digits of a number. -/
def octal (n : Nat) : Nat :=
  n / 64 * 100 + n / 8 % 8 * 10 + n % 8

/-- Reads a set of characters in at most `n` steps. -/
def setParts : (n : Nat) → Marked → Except String (List SetPart)
  | 0, _ | _, [] => .ok []
  | n + 1, (c, isEscaped) :: rest => do
    let plain : Except String (List SetPart) :=
      match rest with
      | ('-', false) :: (d, _) :: more =>
        if d < c then
          let shown (c : Char) : String :=
            if ' ' ≤ c && c ≤ '~' then String.singleton c
            else "\\" ++ ((toString (1000 + octal c.toNat)).drop 1).toString
          .error ("range-endpoints of " ++ Run.quote (shown c ++ "-" ++ shown d) ++
            " are in reverse collating sequence order")
        else do
          let row := (List.range (d.toNat - c.toNat + 1)).map fun i => Char.ofNat (c.toNat + i)
          return .chars row :: (← setParts n more)
      | _ => do return .chars [c] :: (← setParts n rest)
    if c = '[' && !isEscaped && 2 ≤ rest.length then
      let named : Option (Except String (SetPart × Marked)) :=
        match rest with
        | (':', false) :: more =>
          match beforeClosing ':' more with
          | some (name, after) =>
            let name := String.ofList name
            if name = "" then some (.error "missing character class name '[::]'")
            else if CharClass.names.contains name then some (.ok (.named name, after))
            else if looksRepeated more then none
            else some (.error ("invalid character class " ++ Run.quote name))
          | none => none
        | ('=', false) :: more =>
          match beforeClosing '=' more with
          | some ([c], after) => some (.ok (.same c, after))
          | some ([], _) => some (.error "missing equivalence class character '[==]'")
          | some (text, _) =>
            if looksRepeated more then none
            else some (.error (String.ofList text ++
              ": equivalence class operand must be a single character"))
          | none => none
        | _ => none
      match named with
      | some (.ok (part, after)) => return part :: (← setParts n after)
      | some (.error fault) => throw fault
      | none =>
        match ← repeated? rest with
        | some (c, 0, after) => return .fill c :: (← setParts n after)
        | some (c, count, after) => return .chars (List.replicate count c) :: (← setParts n after)
        | none => plain
    else plain

/-- All characters of one byte. -/
def allChars : List Char := (List.range 256).map Char.ofNat

/-- The characters of a part, where nothing has to be filled up. -/
def SetPart.toList : SetPart → List Char
  | chars cs => cs
  | named name => allChars.filter fun c => CharClass.has name c
  | same c => [c]
  | fill _ => []

/-- A character of a set, with the case of the class that begins with it, if one of the two does. -/
abbrev Cell := Char × Option String

/-- The characters of parts, with a number of them in place of those that fill up. -/
def cells (missing : Nat) (parts : List SetPart) : List Cell :=
  parts.flatMap fun
    | .named name =>
      let isCase := name = "upper" || name = "lower"
      (SetPart.toList (.named name)).zipIdx.map fun (c, i) =>
        (c, if isCase && i = 0 then some name else none)
    | .fill c => List.replicate missing (c, none)
    | part => part.toList.map (·, none)

/-- How many letters a class of one case has. -/
def caseSize : Nat := 26

/-- Which character becomes which, if classes of one case stand across from each other. -/
def pairs : List Cell → List Cell → Except String (List (Char × Char))
  | x :: xs, y :: ys => do
    match x.2, y.2 with
    | none, some _ => throw "misaligned [:upper:] and/or [:lower:] construct"
    | some _, some _ =>
      let row := ((x :: xs).take caseSize).zip ((y :: ys).take caseSize)
      return row.map (fun (a, b) => (a.1, b.1)) ++
        (← pairs (xs.drop (caseSize - 1)) (ys.drop (caseSize - 1)))
    | _, none => return (x.1, y.1) :: (← pairs xs ys)
  | _, y :: _ =>
    if y.2.isSome then throw "misaligned [:upper:] and/or [:lower:] construct" else return []
  | _, [] => return []
termination_by xs => xs.length

/-- Which character becomes which. -/
def exchange (isComplement truncates : Bool) (first second : List SetPart) :
    Except String (List (Char × Char)) := do
  let source := cells 0 first
  let source := if isComplement then
      (allChars.filter fun c => !source.any (·.1 = c)).map (·, none)
    else source
  let size := (cells 0 second).length
  let goal := cells (source.length - size) second
  if second.any fun | .same _ => true | _ => false then
    throw "[=c=] expressions may not appear in string2 when translating"
  if second.any fun
      | .named name => !(["upper", "lower"].contains name)
      | _ => false then
    throw ("when translating, the only character classes that may appear in\n" ++
      "string2 are 'upper' and 'lower'")
  let paired ← if isComplement then pure [] else pairs source goal
  let goal ← if goal.length < source.length && !truncates then do
      match second.getLast?, goal.getLast? with
      | some (.named _), _ =>
        throw ("when translating with string1 longer than string2,\n" ++
          "the latter string must not end with a character class")
      | _, none => throw "when not truncating set1, string2 must be non-empty"
      | _, some (last, _) =>
        pure (goal ++ List.replicate (source.length - goal.length) (last, none))
    else pure goal
  if isComplement then
    if first.any (fun | .named _ => true | _ => false) &&
        !(goal.length = source.length && goal.all fun c => c.1 = (goal.headD ('a', none)).1) then
      throw ("when translating with complemented character classes,\n" ++
        "string2 must map all characters in the domain to one")
    return (source.zip goal).map fun (a, b) => (a.1, b.1)
  else if paired.length = source.length then return paired
  else pairs source goal

/-- A text without a character of some that follows the same character, given the last one before it, and
the last one of it. -/
def squeeze (set : Array Bool) (last : Option Char) (text : List Char) : List Char × Option Char :=
  let (shown, last) := text.foldl (fun ((shown, last) : List Char × Option Char) c =>
    if last = some c && set[c.toNat]?.getD false then (shown, last)
    else (c :: shown, some c)) ([], last)
  (shown.reverse, last)

/-- Changes the input part by part, at most `n` of them, given the last character before each part. -/
def changeParts (change : Option Char → List Char → List Char × Option Char) :
    (n : Nat) → (last : Option Char) → Run Nat
  | 0, _ => return 0
  | n + 1, last => do
    match ← readSome 0 chunkSize with
    | .ok [] => return 0
    | .ok bytes =>
      let (text, last) := change last (Bytewise.ofBytes bytes)
      match ← writeBytes 1 (Bytewise.toBytes text) with
      | .ok _ => changeParts change n last
      | .error fault => toolFault 1 ("write error: " ++ fault.message)
    | .error fault => toolFault 1 ("read error: " ++ fault.message)

/-- Exchanges, removes or squeezes characters. -/
def tr : Tool := fun _ words => do
  let table := OptionTable.of "cCdst" [("complement", 'c'), ("delete", 'd'), ("squeeze-repeats", 's'),
    ("truncate-set1", 't')]
  let given ← readOptions 1 table false words
  let (deletes, squeezes) := (given.has 'd', given.has 's')
  let isComplement := given.has 'c' || given.has 'C'
  let fault (texts : List String) : Run Nat := do
    complainAsTool (texts.headD "")
    texts.tail.forM complain
    complain ("Try '" ++ (← process).name ++ " --help' for more information.")
    return 1
  let least := if deletes == squeezes then 2 else 1
  let most := if deletes && !squeezes then 1 else 2
  match given.operands with
  | [] => return ← fault ["missing operand"]
  | [word] =>
    if least = 2 then
      return ← fault ["missing operand after " ++ quote word,
        if squeezes then "Two strings must be given when both deleting and squeezing repeats."
        else "Two strings must be given when translating."]
  | words =>
    if most < words.length then
      return ← fault (("extra operand " ++ quote (words[most]?.getD "")) ::
        if words.length = 2 then
          ["Only one string may be given when deleting without squeezing repeats."]
        else [])
  let sets ← given.operands.mapM fun word => do
    let (marked, isOpen) := unescape word.toList
    if isOpen then
      complainAsTool "warning: an unescaped backslash at end of string is not portable"
    match setParts (marked.length + 1) marked with
    | .ok parts => return parts
    | .error fault => toolFault 1 fault
  let first := sets.headD []
  let second := sets[1]?
  let isFill : SetPart → Bool
    | .fill _ => true
    | _ => false
  if first.any isFill then
    toolFault 1 "the [c*] repeat construct may not appear in string1"
  if 1 < (second.getD []).countP isFill then
    toolFault 1 "only one [c*] repeat construct may appear in string2"
  if deletes && (second.getD []).any isFill then
    toolFault 1 "the [c*] construct may appear in string2 only when translating"
  let tableOf (cs : List Char) (inverted : Bool) : Array Bool :=
    cs.foldl (fun (t : Array Bool) c => t.setIfInBounds c.toNat (!inverted))
      (Array.replicate 256 inverted)
  let firstSet := tableOf (first.flatMap SetPart.toList) isComplement
  let has (set : Array Bool) (c : Char) : Bool := set[c.toNat]?.getD false
  let change : Option Char → List Char → List Char × Option Char ← match deletes, second with
    | true, none => pure fun last text => (text.filter (!has firstSet ·), last)
    | true, some parts =>
      let set := tableOf (parts.flatMap SetPart.toList) false
      pure fun last text => squeeze set last (text.filter (!has firstSet ·))
    | false, none => pure (squeeze firstSet)
    | false, some parts =>
      match exchange isComplement (given.has 't') first parts with
      | .error fault => toolFault 1 fault
      | .ok found =>
        let map := found.foldl (fun (map : Array Char) (a, b) => map.setIfInBounds a.toNat b)
          allChars.toArray
        let set := tableOf (found.map (·.2)) false
        let exchanged (text : List Char) : List Char :=
          text.map fun c => map[c.toNat]?.getD c
        pure fun last text =>
          if squeezes then squeeze set last (exchanged text) else (exchanged text, last)
  changeParts change 1000000 none

/-! ## Columns -/

/-- The column after a character. -/
def columnAfter (countsBytes : Bool) (column : Nat) (c : Char) : Nat :=
  if countsBytes then column + 1
  else match c with
    | '\x08' => column - 1
    | '\r' => 0
    | '\t' => column / 8 * 8 + 8
    | _ => column + 1

/-- A line cut into pieces of a width, possibly after blanks. The line before, with its last character
first, ends at a column. -/
def foldLine (width : Nat) (countsBytes atBlanks : Bool) :
    (line : List Char) → (column : Nat) → List Char → List String
  | line, _, [] => if line.isEmpty then [] else [String.ofList line.reverse]
  | line, column, c :: rest =>
    let after := columnAfter countsBytes column c
    if after ≤ width || line.isEmpty then foldLine width countsBytes atBlanks (c :: line) after rest
    else
      let tailPart := if atBlanks then line.takeWhile fun c => c ≠ ' ' && c ≠ '\t' else line
      if atBlanks && tailPart.length < line.length then
        let front := line.drop tailPart.length
        let column := tailPart.reverse.foldl (columnAfter countsBytes) 0
        String.ofList front.reverse ::
          foldLine width countsBytes atBlanks (c :: tailPart) (columnAfter countsBytes column c) rest
      else
        String.ofList line.reverse ::
          foldLine width countsBytes atBlanks [c] (columnAfter countsBytes 0 c) rest

/-- Words with a number as an option without a letter written as an option with one. -/
def withNumberOption (letter : Char) (words : List String) : List String :=
  words.map fun word =>
    match word.toList with
    | '-' :: digits =>
      if !digits.isEmpty && digits.all Char.isDigit then
        "-" ++ String.singleton letter ++ String.ofList digits
      else word
    | _ => word

/-- Cuts lines to a width. -/
def fold : Tool := fun _ words => do
  let table := OptionTable.of "bsw:" [("bytes", 'b'), ("spaces", 's'), ("width:", 'w')]
  let given ← readOptions 1 table true (withNumberOption 'w' words)
  let text := (given.find? 'w').getD "80"
  let fault := "invalid number of columns: " ++ quote text
  let some width := number? text | toolFault 1 fault
  if width = 0 then toolFault 1 (fault ++ ": Numerical result out of range")
  if Nat.pow 2 64 - 10 ≤ width then
    toolFault 1 (fault ++ ": Value too large for defined data type")
  let (found, status) ← readOperands given.operands
  let shown := found.map fun (_, text) =>
    String.join ((Lines.withEnds text).map fun line =>
      let body := if line.endsWith "\n" then (line.dropEnd 1).toString else line
      "\n".intercalate (foldLine width (given.has 'b') (given.has 's') [] 0 body.toList) ++
        (if line.endsWith "\n" then "\n" else ""))
  return max status (← print (String.join shown))

/-- Where columns stop: at certain columns, and after those at the multiples of a number, counted from
the left side or from the last of those columns. -/
structure TabStops where
  stops : List Nat
  multiple : Nat
  isCounted : Bool
deriving Repr

namespace TabStops

/-- Reads where columns stop. -/
def ofTexts (texts : List String) : Except String TabStops := do
  let parts := (texts.flatMap fun text => text.splitToList fun c => c = ',' || c = ' ' || c = '\t').filter
    (· ≠ "")
  let tabs ← parts.foldlM (fun (tabs : TabStops) part => do
    let (mark, digits) := match part.toList with
      | '/' :: rest => (some '/', rest)
      | '+' :: rest => (some '+', rest)
      | all => (none, all)
    let row := digits.takeWhile Char.isDigit
    if row.length < digits.length then
      throw ("tab size contains invalid character(s): " ++
        Run.quote (String.ofList (digits.drop row.length)))
    let n := (String.ofList row).toNat?.getD 0
    match mark with
    | some mark => return { tabs with multiple := n, isCounted := mark = '+' }
    | none => return { tabs with stops := tabs.stops ++ [n] }) ⟨[], 0, false⟩
  if tabs.stops.contains 0 then throw "tab size cannot be 0"
  if (tabs.stops.zip tabs.stops.tail).any fun (a, b) => b ≤ a then throw "tab sizes must be ascending"
  match tabs.stops with
  | [] => return ⟨[], if tabs.multiple = 0 then 8 else tabs.multiple, false⟩
  | [n] => return if tabs.multiple = 0 then ⟨[], n, false⟩ else tabs
  | _ => return tabs

/-- The next stop after a column, if there is one. -/
def after? (tabs : TabStops) (column : Nat) : Option Nat :=
  match tabs.stops.find? (column < ·) with
  | some stop => some stop
  | none =>
    if tabs.multiple = 0 then none
    else
      let last := if tabs.isCounted then tabs.stops.getLast?.getD 0 else 0
      some (column + tabs.multiple - (column - last) % tabs.multiple)

end TabStops

/-- A text with blanks in place of tabs. -/
def expandText (tabs : TabStops) (onlyFirst : Bool) (text : List Char) : List Char :=
  let step := fun ((shown, column, converts) : List Char × Nat × Bool) (c : Char) =>
    if c = '\n' then (c :: shown, 0, true)
    else if !converts then (c :: shown, column, converts)
    else
      let isBlank := c = ' ' || c = '\t'
      let converts := !onlyFirst || isBlank
      if c = '\t' then
        let next := (tabs.after? column).getD (column + 1)
        (List.replicate (next - column) ' ' ++ shown, next, converts)
      else if c = '\x08' then (c :: shown, column - 1, converts)
      else (c :: shown, column + 1, converts)
  (text.foldl step ([], 0, true)).1.reverse

/-- What is known while blanks become tabs: the column, whether blanks still become tabs, the blanks that
are still pending, whether the first of them stands right before a stop, and whether the last character
was blank. -/
structure TabState where
  shown : List Char
  column : Nat
  converts : Bool
  pending : List Char
  oneBefore : Bool
  afterBlank : Bool

/-- Adds a character after the pending ones. -/
def TabState.put (s : TabState) (c : Char) (column : Nat) (converts isBlank : Bool) : TabState :=
  let pending := if 1 < s.pending.length && s.oneBefore then '\t' :: s.pending.tail else s.pending
  ⟨c :: (pending.reverse ++ s.shown), column, converts, [], false, isBlank⟩

/-- A text with tabs in place of blanks. -/
def unexpandText (tabs : TabStops) (everywhere : Bool) (text : List Char) : List Char :=
  let step := fun (s : TabState) (c : Char) =>
    if c = '\n' then s.put c 0 true true
    else if !s.converts then { s with shown := c :: s.shown }
    else
      let isBlank := c = ' ' || c = '\t'
      if !isBlank then
        s.put c (if c = '\x08' then s.column - 1 else s.column + 1) everywhere false
      else
        match tabs.after? s.column with
        | none => s.put c s.column false true
        | some next =>
          if c = '\t' then
            let pending := if s.pending.isEmpty then [] else ['\t']
            let kept := if s.oneBefore then pending else []
            { s with pending := kept }.put c next true true
          else if s.afterBlank && s.column + 1 = next then
            let kept := if s.oneBefore then ['\t'] else []
            { s with pending := kept }.put '\t' next true true
          else
            { s with
              column := s.column + 1
              oneBefore := s.oneBefore || s.column + 1 = next
              pending := s.pending ++ [c]
              afterBlank := true }
  let s := text.foldl step ⟨[], 0, true, [], false, true⟩
  (s.pending.reverse ++ s.shown).reverse

/-- Options that tell where columns stop. -/
def tabStopsOf (given : Given) : Run TabStops :=
  match TabStops.ofTexts ((given.options.filter (·.1 = 't')).map (·.2)) with
  | .ok tabs => return tabs
  | .error fault => toolFault 1 fault

def expand : Tool := fun _ words => do
  let table := OptionTable.of "it:" [("initial", 'i'), ("tabs:", 't')]
  let given ← readOptions 1 table true (withNumberOption 't' words)
  let tabs ← tabStopsOf given
  let (found, status) ← readOperands given.operands
  return max status (← print (String.ofList (expandText tabs (given.has 'i') (found.flatMap (·.2)))))

def unexpand : Tool := fun _ words => do
  let table := OptionTable.of "at:" [("all", 'a'), ("first-only", 'f'), ("tabs:", 't')]
  let given ← readOptions 1 table true (withNumberOption 't' words)
  let tabs ← tabStopsOf given
  let (found, status) ← readOperands given.operands
  let everywhere := (given.has 'a' || given.has 't') && !given.has 'f'
  return max status (← print (String.ofList (unexpandText tabs everywhere (found.flatMap (·.2)))))

end Rebuild.Shell.Tool
