import Rebuild.Shell.Tool.Files

/-!
# Tools that show lines

Tools that print what files hold, as a whole or in part, in another order, or counted.
-/

namespace Rebuild.Shell.Tool

open Run

/-! ## Whole files -/

/-- A character as `cat` shows those that cannot be printed. -/
def visible (showsTabs : Bool) (c : Char) : String :=
  let low (n : Nat) : String :=
    if n < 32 then "^" ++ String.singleton (Char.ofNat (n + 64))
    else if n = 127 then "^?"
    else String.singleton (Char.ofNat n)
  if c = '\n' then "\n"
  else if c = '\t' then (if showsTabs then "^I" else "\t")
  else if c.toNat < 128 then low c.toNat
  else "M-" ++ low (c.toNat - 128)

/-- How `cat` shows lines, and what it has shown: the number of the last line, whether the last line was
blank, and whether the last one is still open. -/
structure CatState where
  number : Nat
  blanks : Nat
  isOpen : Bool

/-- A line as `cat` shows it. -/
def catLine (given : Given) (s : CatState) (line : String) : String × CatState :=
  let hasEnd := line.endsWith "\n"
  let body := if hasEnd then (line.dropEnd 1).toString else line
  let isBlank := body = "" && hasEnd && !s.isOpen
  let blanks := if isBlank then s.blanks + 1 else 0
  if given.has 's' && 1 < blanks then ("", { s with blanks := blanks })
  else
    let numbers := !s.isOpen && (if given.has 'b' then !isBlank else given.has 'n')
    let showsTabs := ['A', 'T', 't'].any given.has
    let showsEnds := ['A', 'E', 'e'].any given.has
    let showsAll := ['A', 'v', 'e', 't'].any given.has
    let shown := if showsAll then String.join (body.toList.map (visible showsTabs))
      else if showsTabs then body.replace "\t" "^I"
      else body
    let number := if numbers then s.number + 1 else s.number
    let front := if numbers then
        let text := toString number
        String.ofList (List.replicate (6 - text.length) ' ') ++ text ++ "\t"
      else ""
    (front ++ shown ++ (if hasEnd then (if showsEnds then "$\n" else "\n") else ""),
      ⟨number, blanks, !hasEnd⟩)

/-- Passes on bytes from a descriptor, at most `n` times. -/
def passOn (descriptor : Nat) : (n : Nat) → Run (Except TreeFault Nat)
  | 0 => return .ok 0
  | n + 1 => do
    match ← readSome descriptor chunkSize with
    | .error fault => return .error fault
    | .ok [] => return .ok 0
    | .ok bytes =>
      match ← writeBytes 1 bytes with
      | .ok _ => passOn descriptor n
      | .error fault =>
        complainAsTool ("write error: " ++ fault.message)
        exit 1

def cat : Tool := fun _ words => do
  let table := OptionTable.of "AbeEnstTuv" [("show-all", 'A'), ("number-nonblank", 'b'),
    ("show-ends", 'E'), ("number", 'n'), ("squeeze-blank", 's'), ("show-tabs", 'T'),
    ("show-nonprinting", 'v')]
  let given ← readOptions 1 table true words
  let paths := if given.operands.isEmpty then ["-"] else given.operands
  let isPlain := given.options.all (·.1 = 'u')
  let (_, status) ← paths.foldlM (fun (state, status) path => do
    if isPlain then
      let outcome ← if path = "-" then passOn 0 1000000
        else do
          match ← openPath path ⟨none, false⟩ false with
          | .error fault => pure (.error fault)
          | .ok id =>
            setDescriptor spareDescriptor (some id)
            awaitPartner id
            let found ← passOn spareDescriptor 1000000
            setDescriptor spareDescriptor none
            pure found
      match outcome with
      | .ok _ => return (state, status)
      | .error fault =>
        complainOf path fault
        return (state, 1)
    else
      match ← readOperand path with
      | .error fault =>
        complainOf path fault
        return (state, 1)
      | .ok text =>
        let (shown, state) := (Lines.withEnds text).foldl (fun (shown, state) line =>
          let (text, state) := catLine given state line
          (text :: shown, state)) (([] : List String), state)
        let failed ← print (String.join shown.reverse)
        return (state, max status failed)) (⟨0, 0, false⟩, 0)
  return status

def tac : Tool := fun _ words => do
  let given ← readOptions 1 (OptionTable.of "brs:" [("separator:", 's'), ("before", 'b')]) true words
  let (found, status) ← readOperands given.operands
  let text := String.join (found.map fun (_, text) => String.join (Lines.withEnds text).reverse)
  return max status (← print text)

def rev : Tool := fun _ words => do
  let (found, status) ← readOperands words
  let line (line : String) : String :=
    if line.endsWith "\n" then String.ofList (line.dropEnd 1).toString.toList.reverse ++ "\n"
    else String.ofList line.toList.reverse
  let text := String.join (found.map fun (_, text) => String.join ((Lines.withEnds text).map line))
  return max status (← print text)

def tee : Tool := fun _ words => do
  let table := OptionTable.of "aip" [("append", 'a'), ("ignore-interrupts", 'i'), ("output-error=", 'p')]
  let given ← readOptions 1 table true words
  let mode ← newMode 0o666
  let (descriptors, status) ← given.operands.zipIdx.foldlM (fun (open_, status) (path, i) => do
    if path = "-" then return (open_ ++ [1], status)
    match ← openPath path ⟨some mode, !given.has 'a'⟩ (given.has 'a') with
    | .ok id =>
      setDescriptor (200 + i) (some id)
      return (open_ ++ [200 + i], status)
    | .error fault =>
      complainOf path fault
      return (open_, 1)) (([] : List Nat), 0)
  let rec copy : (n : Nat) → Run Unit
    | 0 => return ()
    | n + 1 => do
      let bytes := (← readSome 0 chunkSize).toOption.getD []
      if !bytes.isEmpty then
        write 1 bytes
        descriptors.forM fun d => write d bytes
        copy n
  copy 1000000
  return status

/-! ## The beginning and the end -/

/-- A header for each of several files. -/
def header (isFirst : Bool) (path : String) : String :=
  (if isFirst then "" else "\n") ++ "==> " ++ (if path = "-" then "standard input" else path) ++ " <==\n"

/-- Words with a count as an option without a letter put the usual way. -/
def withCountOption (signs : List Char) (words : List String) : List String :=
  match words with
  | word :: rest =>
    match word.toList with
    | sign :: digits =>
      let row := digits.takeWhile Char.isDigit
      let after := digits.drop row.length
      if signs.contains sign && !row.isEmpty && after.all fun c => c = 'c' || c = 'n' || c = 'q' then
        let front := if sign = '+' then "+" else ""
        let letter := if after.contains 'c' then "-c" else "-n"
        (if after.contains 'q' then ["-q"] else []) ++ [letter, front ++ String.ofList row] ++ rest
      else words
    | [] => words
  | [] => words

/-- A count with its sign. -/
def signedCount? (text : String) : Option (Option Char × Nat) :=
  match text.toList with
  | sign :: rest =>
    if sign = '-' || sign = '+' then (sizeOf? (String.ofList rest)).map fun n => (some sign, n)
    else (sizeOf? text).map fun n => (none, n)
  | [] => none

/-- Prints the first lines of a feed. -/
def headLines : (n : Nat) → Feed → Run Feed
  | 0, feed => return feed
  | n + 1, feed => do
    match ← feed.next with
    | (some line, feed) =>
      say line
      headLines n feed
    | (none, feed) => return feed

def head : Tool := fun _ words => do
  let table := OptionTable.of "c:n:qvz" [("bytes:", 'c'), ("lines:", 'n'), ("quiet", 'q'),
    ("silent", 'q'), ("verbose", 'v'), ("zero-terminated", 'z')]
  let given ← readOptions 1 table true (withCountOption ['-'] words)
  let way := (given.lastOf ['c', 'n']).getD 'n'
  let text := (given.find? way).getD "10"
  let some (sign, count) := signedCount? text
    | toolFault 1 ("invalid number of " ++ (if way = 'c' then "bytes" else "lines") ++ ": " ++ quote text)
  let paths := if given.operands.isEmpty then ["-"] else given.operands
  let headers := given.has 'v' || (1 < paths.length && !given.has 'q')
  let (_, status) ← paths.foldlM (fun (isFirst, status) path => do
    let showHeader : Run Unit := do if headers then say (header isFirst path)
    if path = "-" && way = 'n' && sign ≠ some '-' then
      showHeader
      match ← opened? 0 with
      | some (_, .file _ _ _) =>
        for _ in List.range count do
          let line := (← readLine 0).toOption.getD []
          write 1 line
      | _ => let _ ← headLines count ⟨[], [], some 0, '\n'⟩
      return (false, status)
    else
      let bytes ← if way = 'c' && sign ≠ some '-' then
          if path = "-" then readFront 0 count else readPathWithin (some count) path
        else if path = "-" then readAll 0
        else readPath path
      match bytes.map Bytewise.ofBytes with
      | .error fault =>
        if fault = .isDirectory then
          showHeader
          complainAsTool ("error reading " ++ quote path ++ ": " ++ fault.message)
        else complainAsTool ("cannot open " ++ quote path ++ " for reading: " ++ fault.message)
        return (isFirst && fault ≠ .isDirectory, 1)
      | .ok chars =>
        showHeader
        let shown := if way = 'c' then
            String.ofList (if sign = some '-' then chars.take (chars.length - count) else chars.take count)
          else
            let lines := Lines.cut true (if given.has 'z' then '\x00' else '\n') [] chars
            String.join (if sign = some '-' then lines.take (lines.length - count) else lines.take count)
        return (false, max status (← print shown))) (true, 0)
  return status

def tail : Tool := fun _ words => do
  let table := OptionTable.of "c:fFn:qs:vz" [("bytes:", 'c'), ("lines:", 'n'), ("quiet", 'q'),
    ("silent", 'q'), ("verbose", 'v'), ("follow=", 'f'), ("zero-terminated", 'z')]
  let given ← readOptions 1 table true (withCountOption ['-', '+'] words)
  let way := (given.lastOf ['c', 'n']).getD 'n'
  let text := (given.find? way).getD "10"
  let some (sign, count) := signedCount? text
    | toolFault 1 ("invalid number of " ++ (if way = 'c' then "bytes" else "lines") ++ ": " ++ quote text)
  let paths := if given.operands.isEmpty then ["-"] else given.operands
  let headers := given.has 'v' || (1 < paths.length && !given.has 'q')
  let (_, status) ← paths.foldlM (fun (isFirst, status) path => do
    match ← readOperand path with
    | .error fault =>
      if fault = .isDirectory then
        if headers then say (header isFirst path)
        complainAsTool ("error reading " ++ quote path ++ ": " ++ fault.message)
      else complainAsTool ("cannot open " ++ quote path ++ " for reading: " ++ fault.message)
      return (isFirst && fault ≠ .isDirectory, 1)
    | .ok chars =>
      if headers then say (header isFirst path)
      let shown := if way = 'c' then
          String.ofList (if sign = some '+' then chars.drop (count - 1)
            else chars.drop (chars.length - count))
        else
          let lines := Lines.cut true (if given.has 'z' then '\x00' else '\n') [] chars
          String.join (if sign = some '+' then lines.drop (count - 1)
            else lines.drop (lines.length - count))
      return (false, max status (← print shown))) (true, 0)
  return status

/-! ## Counting -/

/-- What `wc` counts in a text. -/
structure Counts where
  lines : Nat
  words : Nat
  chars : Nat
  longest : Nat

namespace Counts

def isBlank (c : Char) : Bool := c = ' ' || ('\t' ≤ c && c ≤ '\r')

/-- The number of words of a text, `inside` telling whether it begins in one. -/
def countWords (inside : Bool) : List Char → Nat
  | [] => 0
  | c :: rest =>
    if isBlank c then countWords false rest
    else if inside then countWords true rest
    else if c < ' ' || '\x7f' ≤ c then countWords inside rest
    else countWords true rest + 1

/-- The width of the longest line of a text. -/
def longestLine (width longest : Nat) : List Char → Nat
  | [] => max width longest
  | '\n' :: rest | '\r' :: rest | '\x0c' :: rest => longestLine 0 (max width longest) rest
  | '\t' :: rest => longestLine (width / 8 * 8 + 8) longest rest
  | c :: rest => longestLine (if ' ' ≤ c && c ≤ '~' then width + 1 else width) longest rest

def of (text : List Char) : Counts :=
  ⟨text.count '\n', countWords false text, text.length, longestLine 0 0 text⟩

def add (a b : Counts) : Counts :=
  ⟨a.lines + b.lines, a.words + b.words, a.chars + b.chars, max a.longest b.longest⟩

end Counts

def wc : Tool := fun _ words => do
  let table := OptionTable.of "clLmw" [("bytes", 'c'), ("chars", 'm'), ("lines", 'l'), ("words", 'w'),
    ("max-line-length", 'L'), ("total:", 't')]
  let given ← readOptions 1 table true words
  let paths := if given.operands.isEmpty then ["-"] else given.operands
  let isUsual := !(['c', 'l', 'L', 'm', 'w'].any given.has)
  let columns (c : Counts) : List Nat :=
    (if isUsual || given.has 'l' then [c.lines] else []) ++
      (if isUsual || given.has 'w' then [c.words] else []) ++
      (if given.has 'm' then [c.chars] else []) ++
      (if isUsual || given.has 'c' then [c.chars] else []) ++
      (if given.has 'L' then [c.longest] else [])
  let isRegular (path : String) : Run (Option Bool) := do
    if path = "-" then
      return match ← opened? 0 with
        | some (_, .file _ _ _) => some true
        | _ => some false
    else
      return match ← lookUp path with
        | .ok (_, entry) => some entry.isFile
        | .error _ => none
  let kinds ← paths.mapM isRegular
  let found ← paths.mapM fun path => do
    let before ← match ← opened? 0 with
      | some (_, .file _ offset _) => pure (if path = "-" then offset else 0)
      | _ => pure 0
    return (path, before, ← readOperand path)
  let size := found.foldl (fun size (_, before, text) => match text with
    | .ok chars => size + before + chars.length
    | .error _ => size) 0
  let width := if (columns ⟨0, 0, 0, 0⟩).length = 1 && paths.length = 1 then 1
    else max (toString size).length (if kinds.contains (some false) then 7 else 1)
  let right (n : Nat) : String :=
    let text := toString n
    String.ofList (List.replicate (width - text.length) ' ') ++ text
  let line (c : Counts) (name : String) : String :=
    " ".intercalate ((columns c).map right) ++ (if name = "" then "" else " " ++ name) ++ "\n"
  let (total, status) ← found.foldlM (fun (total, status) (path, _, text) => do
    let name := if given.operands.isEmpty then "" else path
    match text with
    | .ok chars =>
      let counts := Counts.of chars
      say (line counts name)
      return (total.add counts, status)
    | .error fault =>
      complainOf path fault
      if fault = .isDirectory then say (line ⟨0, 0, 0, 0⟩ name)
      return (total, 1)) (⟨0, 0, 0, 0⟩, 0)
  if 1 < paths.length then say (line total "total")
  return status

def nl : Tool := fun _ words => do
  let table := OptionTable.of "b:f:h:i:n:s:v:w:d:l:p" [("body-numbering:", 'b'), ("line-increment:", 'i'),
    ("number-format:", 'n'), ("number-separator:", 's'), ("starting-line-number:", 'v'),
    ("number-width:", 'w')]
  let given ← readOptions 1 table true words
  let (found, status) ← readOperands given.operands
  let natural (letter : Char) (usual : Nat) : Nat := ((given.find? letter).bind number?).getD usual
  let width := natural 'w' 6
  let step := natural 'i' 1
  let separator := (given.find? 's').getD "\t"
  let numbersAll := given.find? 'b' = some "a"
  let numbersNone := given.find? 'b' = some "n"
  let numberText (n : Nat) : String :=
    let text := toString n
    let fill (c : Char) : String := String.ofList (List.replicate (width - text.length) c)
    match given.find? 'n' with
    | some "ln" => text ++ fill ' '
    | some "rz" => fill '0' ++ text
    | _ => fill ' ' ++ text
  let blank := String.ofList (List.replicate (width + separator.length) ' ')
  let lines := Lines.of (found.flatMap fun (_, text) => text)
  let (shown, _) := lines.foldl (fun (shown, n) line =>
    if numbersAll || (line ≠ "" && !numbersNone) then
      ((numberText n ++ separator ++ line ++ "\n") :: shown, n + step)
    else ((blank ++ line ++ "\n") :: shown, n)) (([] : List String), natural 'v' 1)
  return max status (← print (String.join shown.reverse))

/-! ## Comparing lines -/

def uniq : Tool := fun _ words => do
  let table := OptionTable.of "cdDf:is:uw:z" [("count", 'c'), ("repeated", 'd'), ("all-repeated=", 'D'),
    ("skip-fields:", 'f'), ("ignore-case", 'i'), ("skip-chars:", 's'), ("unique", 'u'),
    ("check-chars:", 'w'), ("zero-terminated", 'z'), ("group=", 'G')]
  let given ← readOptions 1 table true words
  let natural (letter : Char) : Nat := ((given.find? letter).bind number?).getD 0
  let rec skipFields : Nat → List Char → List Char
    | 0, text => text
    | n + 1, text =>
      skipFields n ((text.dropWhile Counts.isBlank).dropWhile fun c => !Counts.isBlank c)
  let key (line : String) : List Char :=
    let text := (skipFields (natural 'f') line.toList).drop (natural 's')
    let text := if given.has 'w' then text.take (natural 'w') else text
    if given.has 'i' then text.map Char.toLower else text
  let input := given.operands.headD "-"
  let text ← match ← readOperand input with
    | .ok text => pure text
    | .error fault => toolFault 1 (input ++ ": " ++ fault.message)
  let lines := Lines.of text
  let groups := (lines.foldl (fun (groups : List (List Char × List String)) line =>
    let k := key line
    match groups with
    | (last, members) :: rest =>
      if last = k then (last, line :: members) :: rest else (k, [line]) :: groups
    | [] => [(k, [line])]) []).reverse.map fun (_, members) => members.reverse
  let shown := groups.map fun group =>
    let count := group.length
    if given.has 'D' then (if 1 < count then Lines.join group else "")
    else if (given.has 'd' && count < 2) || (given.has 'u' && 1 < count) then ""
    else
      let front := if given.has 'c' then
          let text := toString count
          String.ofList (List.replicate (7 - text.length) ' ') ++ text ++ " "
        else ""
      front ++ group.headD "" ++ "\n"
  let result := String.join shown
  match given.operands with
  | [_, path] =>
    let mode ← newMode 0o666
    match ← openPath path ⟨some mode, true⟩ false with
    | .ok id =>
      setDescriptor 1 (some id)
      print result
    | .error fault => toolFault 1 (path ++ ": " ++ fault.message)
  | _ => print result

/-- Reads two files line by line. -/
def readTwo (given : Given) : Run (List String × List String) := do
  match given.operands with
  | [] => usageFault 1 "missing operand"
  | [only] => usageFault 1 ("missing operand after " ++ quote only)
  | _ :: _ :: extra :: _ => usageFault 1 ("extra operand " ++ quote extra)
  | [a, b] =>
    let read (path : String) : Run (List String) := do
      match ← readOperand path with
      | .ok text => return Lines.of text
      | .error fault => toolFault 1 (path ++ ": " ++ fault.message)
    return (← read a, ← read b)

/-- Lines of two sorted texts side by side: those that only one has, and those that both have. -/
def sideBySide : List String → List String → List (Nat × String)
  | [], bs => bs.map (2, ·)
  | as, [] => as.map (1, ·)
  | a :: as, b :: bs =>
    if a = b then (3, a) :: sideBySide as bs
    else if a < b then (1, a) :: sideBySide as (b :: bs)
    else (2, b) :: sideBySide (a :: as) bs
termination_by as bs => as.length + bs.length

/-- Whether lines are in order. -/
def isSorted : List String → Bool
  | a :: b :: rest => a ≤ b && isSorted (b :: rest)
  | _ => true

def comm : Tool := fun _ words => do
  let table := OptionTable.of "123z" [("check-order", 'C'), ("nocheck-order", 'N'),
    ("output-delimiter:", 'o'), ("total", 't')]
  let given ← readOptions 1 table true words
  let (a, b) ← readTwo given
  let tab := (given.find? 'o').getD "\t"
  let shows (column : Nat) : Bool :=
    !given.has (match column with
      | 1 => '1'
      | 2 => '2'
      | _ => '3')
  let indent (column : Nat) : String :=
    String.join (((List.range column).drop 1).filterMap fun c => if shows c then some tab else none)
  let shown := (sideBySide a b).filterMap fun (column, line) =>
    if shows column then some (indent column ++ line ++ "\n") else none
  let status ← print (String.join shown)
  if given.has 'N' || (isSorted a && isSorted b) then return status
  if !isSorted a then complainAsTool "file 1 is not in sorted order"
  if !isSorted b then complainAsTool "file 2 is not in sorted order"
  complainAsTool "input is not in sorted order"
  return 1

/-- The fields of a line. -/
def fieldsOf (separator : Option Char) (line : String) : List String :=
  match separator with
  | some c => line.splitOn (String.singleton c)
  | none => (line.splitOn " ").flatMap fun part => (part.splitOn "\t").filter (· ≠ "")

def join : Tool := fun _ words => do
  let table := OptionTable.of "a:e:i1:2:j:o:t:v:z" [("ignore-case", 'i'), ("header", 'h'),
    ("check-order", 'c'), ("nocheck-order", 'c')]
  let given ← readOptions 1 table true words
  let (a, b) ← readTwo given
  let separator := (given.find? 't').bind (·.toList.head?)
  let glue := String.singleton (separator.getD ' ')
  let both := ((given.find? 'j').bind number?)
  let column (letter : Char) : Nat := ((both <|> (given.find? letter).bind number?).getD 1) - 1
  let (first, second) := (column '1', column '2')
  let lone := (given.options.filter fun (c, _) => c = 'a' || c = 'v').map (·.2)
  let onlyLone := given.has 'v'
  let empty := (given.find? 'e').getD ""
  let fold (text : String) : String := if given.has 'i' then text.toLower else text
  let split (line : String) : List String := fieldsOf separator line
  let keyOf (column : Nat) (fields : List String) : String := fold ((fields[column]?).getD "")
  let others (column : Nat) (fields : List String) : List String := fields.eraseIdx column
  let shape := (given.find? 'o').map fun text => (text.splitOn ",").flatMap (·.splitOn " ")
  let line (key : String) (x y : Option (List String)) : String :=
    match shape with
    | none => glue.intercalate (key :: (x.map (others first)).getD [] ++ (y.map (others second)).getD [])
    | some items => glue.intercalate (items.map fun item =>
        if item = "0" then key
        else match item.splitOn "." with
          | [file, field] =>
            let fields := if file = "1" then x else y
            let value := ((fields.getD [])[(field.toNat?.getD 1) - 1]?).getD ""
            if value = "" then empty else value
          | _ => "")
  let raw (column : Nat) (fields : List String) : String := (fields[column]?).getD ""
  let (xs, ys) := (a.map split, b.map split)
  let rec merge : (n : Nat) → List (List String) → List (List String) → List String
    | 0, _, _ => []
    | _, [], [] => []
    | n + 1, x :: xs, [] =>
      (if lone.contains "1" then [line (raw first x) (some x) none] else []) ++ merge n xs []
    | n + 1, [], y :: ys =>
      (if lone.contains "2" then [line (raw second y) none (some y)] else []) ++ merge n [] ys
    | n + 1, x :: xs, y :: ys =>
      let (k, l) := (keyOf first x, keyOf second y)
      if k < l then
        (if lone.contains "1" then [line (raw first x) (some x) none] else []) ++ merge n xs (y :: ys)
      else if l < k then
        (if lone.contains "2" then [line (raw second y) none (some y)] else []) ++ merge n (x :: xs) ys
      else
        let group := (x :: xs).takeWhile fun x => keyOf first x = k
        let others := (y :: ys).takeWhile fun y => keyOf second y = k
        let pairs := if onlyLone then [] else group.flatMap fun x => others.map fun y =>
          line (raw first x) (some x) (some y)
        pairs ++ merge n ((x :: xs).drop group.length) ((y :: ys).drop others.length)
  print (Lines.join (merge (xs.length + ys.length + 1) xs ys))

/-! ## Pieces -/

/-- The suffix of a piece, in letters. -/
def pieceSuffix (length n : Nat) : String :=
  String.ofList ((List.range length).reverse.map fun i =>
    Char.ofNat ('a'.toNat + n / Nat.pow 26 i % 26))

/-- Cuts a list into pieces of a length. -/
def chunks {α : Type} (size : Nat) : (n : Nat) → List α → List (List α)
  | 0, _ | _, [] => []
  | n + 1, items => items.take (max size 1) :: chunks size n (items.drop (max size 1))

def split : Tool := fun _ words => do
  let table := OptionTable.of "a:b:C:dl:n:t:x" [("suffix-length:", 'a'), ("bytes:", 'b'),
    ("lines:", 'l'), ("numeric-suffixes=", 'd'), ("additional-suffix:", 'S'), ("number:", 'n')]
  let given ← readOptions 1 table true words
  let input := given.operands.headD "-"
  let text ← match ← readOperand input with
    | .ok text => pure text
    | .error fault => toolFault 1 ("cannot open " ++ quote input ++ " for reading: " ++ fault.message)
  let start := (given.operands[1]?).getD "x"
  let pieces := match given.find? 'b', given.find? 'n' with
    | some size, _ => (chunks ((sizeOf? size).getD 1) text.length text).map String.ofList
    | none, some count =>
      let n := max ((number? count).getD 1) 1
      let size := text.length / n
      (List.range n).map fun i => String.ofList
        ((text.drop (i * size)).take (if i + 1 = n then text.length else size))
    | none, none =>
      let lines := Lines.withEnds text
      (chunks (((given.find? 'l').bind sizeOf?).getD 1000) lines.length lines).map String.join
  let length := ((given.find? 'a').bind number?).getD 2
  let mode ← newMode 0o666
  forEach pieces.zipIdx fun (piece, i) => do
    let suffix := if given.has 'd' then Floating.digits length i else pieceSuffix length i
    let path := start ++ suffix ++ (given.find? 'S').getD ""
    match ← openPath path ⟨some mode, true⟩ false with
    | .ok id =>
      setDescriptor spareDescriptor (some id)
      write spareDescriptor (Bytewise.toBytes piece.toList)
      setDescriptor spareDescriptor none
      return true
    | .error fault =>
      complainOf path fault
      return false

/-- Prints a line again and again. -/
def yes : Tool := fun _ words => do
  let line := (if words.isEmpty then "y" else " ".intercalate words) ++ "\n"
  let block := Bytewise.toBytes (String.join (List.replicate (1 + 4096 / line.length) line)).toList
  let rec go : (n : Nat) → Run Nat
    | 0 => return 1
    | n + 1 => do
      match ← writeBytes 1 block with
      | .ok _ =>
        sleep 1000
        go n
      | .error fault =>
        complainAsTool ("standard output: " ++ fault.message)
        return 1
  go 100000

end Rebuild.Shell.Tool
