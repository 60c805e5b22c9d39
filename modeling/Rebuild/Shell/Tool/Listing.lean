import Rebuild.Shell.Tool.Files

/-!
# Tools that tell what there is

Tools that list directories, describe what stands in the file tree, and search it.
-/

namespace Rebuild.Shell.Tool

open Run

/-! ## Describing -/

/-- Something in the file tree, with the name by which it is shown. -/
structure Listed where
  name : String
  path : String
  place : Place
  entry : Entry

/-- The letter for the kind of an entry. -/
def kindLetter : Entry → Char
  | .directory _ _ => 'd'
  | .link _ => 'l'
  | .queue _ => 'p'
  | .device _ => 'c'
  | _ => '-'

/-- The kind and the permissions of an entry in letters. -/
def modeText (tree : FileTree) (entry : Entry) : String :=
  let mode := tree.modeOf entry
  let three (shift : Nat) (special : Bool) (mark : Char) : String :=
    let bits := mode >>> shift &&& 7
    let run := match special, decide (bits &&& 1 ≠ 0) with
      | true, true => String.singleton mark
      | true, false => (String.singleton mark).toUpper
      | false, true => "x"
      | false, false => "-"
    (if bits &&& 4 ≠ 0 then "r" else "-") ++ (if bits &&& 2 ≠ 0 then "w" else "-") ++ run
  String.singleton (kindLetter entry) ++ three 6 (mode &&& 0o4000 ≠ 0) 's' ++
    three 3 (mode &&& 0o2000 ≠ 0) 's' ++ three 0 (mode &&& 0o1000 ≠ 0) 't'

/-- The size that an entry is said to have. -/
def sizeOfEntry (tree : FileTree) (entry : Entry) : Nat :=
  match entry with
  | .directory _ _ => 4096
  | .link target => target.utf8ByteSize
  | .program _ => 100000
  | _ => (tree.contentsOf entry).length

/-- The number of blocks of a kibibyte that an entry takes. -/
def blocksOf (tree : FileTree) (entry : Entry) : Nat :=
  match entry with
  | .link _ | .device _ | .queue _ => 0
  | _ => (sizeOfEntry tree entry + 4095) / 4096 * 4

/-- The number of names that lead to an entry. -/
def namesOfEntry (tree : FileTree) (place : Place) (entry : Entry) : Nat :=
  match entry with
  | .directory _ _ => 2 + ((tree.names place).filter fun name => tree.isDirectory (place ++ [name])).length
  | _ => tree.linkCount entry

/-- A number that tells an entry from others. -/
def serialOf (place : Place) (entry : Entry) : Nat :=
  match entry with
  | .file id | .queue id => 1000 + id
  | _ => 500000 + place.foldl (fun n name => n * 31 % 1000003 + name.length) 7

/-- A size with a unit. -/
def humanSize (size : Nat) : String :=
  if size < 1024 then toString size
  else
    let rec scale (n : Nat) (unit : Nat) : List Char → String
      | [] => toString size
      | letter :: rest =>
        if n = 0 || size < unit * 1024 then
          let tenths := (size * 10 + unit - 1) / unit
          if tenths < 100 then
            toString (tenths / 10) ++ "." ++ toString (tenths % 10) ++ String.singleton letter
          else toString ((size + unit - 1) / unit) ++ String.singleton letter
        else scale (n - 1) (unit * 1024) rest
    scale 4 1024 ['K', 'M', 'G', 'T']

/-! ## Directories -/

/-- How `ls` lists. -/
structure ListStyle where
  given : Given
  now : Timestamp

namespace ListStyle

def isLong (s : ListStyle) : Bool :=
  ['l', 'n', 'g', 'o'].any s.given.has

/-- The mark after a name. -/
def mark (s : ListStyle) (tree : FileTree) (entry : Entry) : String :=
  let isFull := s.given.has 'F'
  match entry with
  | .directory _ _ => if isFull || s.given.has 'p' then "/" else ""
  | .link _ => if isFull && !s.isLong then "@" else ""
  | .queue _ => if isFull then "|" else ""
  | _ => if isFull && tree.modeOf entry &&& 0o111 ≠ 0 then "*" else ""

/-- How a name is shown. -/
def nameText (s : ListStyle) (name : String) : String :=
  if s.given.has 'Q' then "\"" ++ (name.replace "\\" "\\\\").replace "\"" "\\\"" ++ "\"" else name

/-- The date of an entry. Those that are not recent are shown with the year. -/
def dateText (s : ListStyle) (time : Timestamp) : String :=
  match s.given.find? 'y' with
  | some "full-iso" => Date.format time "%Y-%m-%d %H:%M:%S.%N %z"
  | some "long-iso" => Date.format time "%Y-%m-%d %H:%M"
  | some style =>
    if style.startsWith "+" then Date.format time (style.drop 1).toString else Date.format time "%b %e %H:%M"
  | none =>
    let isRecent := time ≤ s.now && s.now - 15778476000000000 < time
    Date.format time (if isRecent then "%b %e %H:%M" else "%b %e  %Y")

/-- Text filled with blanks on the left. -/
def right (width : Nat) (text : String) : String :=
  String.ofList (List.replicate (width - text.length) ' ') ++ text

def sizeText (s : ListStyle) (tree : FileTree) (entry : Entry) : String :=
  let size := sizeOfEntry tree entry
  if s.given.has 'h' then humanSize size else toString size

/-- The lines for some entries. -/
def lines (s : ListStyle) (tree : FileTree) (items : List Listed) : List String :=
  let width (f : Listed → String) : Nat := items.foldl (fun n i => max n (f i).length) 0
  let serial (i : Listed) : String := toString (serialOf i.place i.entry)
  let blocks (i : Listed) : String :=
    let n := blocksOf tree i.entry
    if s.given.has 'h' then (if n = 0 then "0" else humanSize (n * 1024)) else toString n
  let links (i : Listed) : String := toString (namesOfEntry tree i.place i.entry)
  let size (i : Listed) : String := s.sizeText tree i.entry
  let owner := if s.given.has 'n' then "0" else "root"
  let serialWidth := width serial
  let blockWidth := width blocks
  let linkWidth := width links
  let sizeWidth := width size
  items.map fun i =>
    let front := (if s.given.has 'i' then right serialWidth (serial i) ++ " " else "") ++
      (if s.given.has 's' then right blockWidth (blocks i) ++ " " else "")
    let name := s.nameText i.name
    if !s.isLong then front ++ name ++ s.mark tree i.entry
    else
      let target := match i.entry with
        | .link target => " -> " ++ Bytewise.ofText target
        | _ => ""
      let people := (if s.given.has 'g' then "" else owner ++ " ") ++
        (if s.given.has 'o' || s.given.has 'G' then "" else owner ++ " ")
      front ++ modeText tree i.entry ++ " " ++ right linkWidth (links i) ++ " " ++ people ++
        right sizeWidth (size i) ++ " " ++ s.dateText (tree.mtimeOf i.entry) ++ " " ++ name ++
        s.mark tree i.entry ++ target

/-- Entries in the order in which they are listed. -/
def sort (s : ListStyle) (tree : FileTree) (items : List Listed) : List Listed :=
  let byName := items.mergeSort fun a b => a.name ≤ b.name
  let sorted := match s.given.lastOf ['t', 'S', 'U', 'f', 'X'] with
    | some 't' => byName.mergeSort fun a b => tree.mtimeOf b.entry ≤ tree.mtimeOf a.entry
    | some 'S' => byName.mergeSort fun a b => sizeOfEntry tree b.entry ≤ sizeOfEntry tree a.entry
    | some 'X' =>
      let extension (i : Listed) : String := match i.name.splitOn "." with
        | [_] => ""
        | parts => parts.getLastD ""
      byName.mergeSort fun a b => extension a ≤ extension b
    | _ => byName
  if s.given.has 'r' then sorted.reverse else sorted

/-- Entries as a text. -/
def text (s : ListStyle) (tree : FileTree) (items : List Listed) : String :=
  let lines := s.lines tree items
  if s.given.has 'm' && !s.isLong && !lines.isEmpty then ", ".intercalate lines ++ "\n"
  else Lines.join lines

end ListStyle

/-- What is in a directory, as far as it is listed. -/
def insideOf (s : ListStyle) (tree : FileTree) (path : String) (place : Place) : List Listed :=
  let names := (tree.names place).filter fun name =>
    s.given.has 'a' || s.given.has 'A' || s.given.has 'f' || !name.startsWith "."
  let items := names.filterMap fun name =>
    let shown := Bytewise.ofText name
    let own := tree.find? (place ++ [name])
    let entry? := if s.given.has 'L' then
        ((tree.lookUp place name).toOption.map (·.2)) <|> own
      else own
    entry?.map fun entry => ⟨shown, inside path shown, place ++ [name], entry⟩
  let dots := if s.given.has 'a' || s.given.has 'f' then
      [(".", place), ("..", place.dropLast)].filterMap fun (name, place) =>
        (tree.find? place).map fun entry => ⟨name, inside path name, place, entry⟩
    else []
  s.sort tree (dots ++ items)

/-- The listing of a directory, with those of the directories in it if that is wanted, in at most `n`
steps into directories. -/
def listDirectory (s : ListStyle) (tree : FileTree) (withHeader : Bool) : (n : Nat) → Listed → String
  | 0, _ => ""
  | n + 1, directory =>
    let items := insideOf s tree directory.path directory.place
    let header := if withHeader then s.nameText directory.path ++ ":\n" else ""
    let total := if s.isLong || s.given.has 's' then
        let blocks := (items.map fun i => blocksOf tree i.entry).foldl (· + ·) 0
        "total " ++ (if s.given.has 'h' && blocks ≠ 0 then humanSize (blocks * 1024) else toString blocks) ++
          "\n"
      else ""
    let own := header ++ total ++ s.text tree items
    if !s.given.has 'R' then own
    else
      let inner := items.filter fun i => i.entry.isDirectory && i.name ≠ "." && i.name ≠ ".."
      own ++ String.join (inner.map fun i => "\n" ++ listDirectory s tree true n i)

def ls : Tool := fun _ words => do
  let table := OptionTable.of "1aAbBcCdDfFgGhHiI:klLmnNopqQrRsStT:uUvw:xXZ"
    [("all", 'a'), ("almost-all", 'A'), ("directory", 'd'), ("classify=", 'F'), ("recursive", 'R'),
      ("reverse", 'r'), ("size", 's'), ("inode", 'i'), ("human-readable", 'h'), ("color=", 'O'),
      ("dereference", 'L'), ("quote-name", 'Q'), ("no-group", 'G'), ("numeric-uid-gid", 'n'),
      ("literal", 'N'), ("time-style:", 'y'), ("full-time", 'z'), ("sort:", 'Y'),
      ("group-directories-first", 'E'), ("format:", 'K'), ("indicator-style:", 'J')]
  let given ← readOptions 2 table true words
  let extra := (if given.has 'z' then [('l', ""), ('y', "full-iso")] else []) ++
    match given.find? 'Y' with
    | some "time" => [('t', "")]
    | some "size" => [('S', "")]
    | some "none" => [('U', "")]
    | some "extension" => [('X', "")]
    | _ => []
  let s : ListStyle := ⟨{ given with options := given.options ++ extra }, (← scene).now⟩
  let paths := if given.operands.isEmpty then ["."] else given.operands
  let found ← paths.filterMapM fun path => do
    let isFollowed := !given.has 'd' && !s.isLong && !given.has 'F'
    let outcome ← match ← lookUp path with
      | .ok found =>
        if isFollowed || given.has 'L' || given.has 'H' then pure (.ok found) else lookAt path
      | .error _ => lookAt path
    match outcome with
    | .ok (place, entry) => return some (⟨path, path, place, entry⟩ : Listed)
    | .error fault =>
      complainAsTool ("cannot access " ++ quote path ++ ": " ++ fault.message)
      return none
  let tree := (← scene).tree
  let (directories, files) := found.partition fun i => i.entry.isDirectory && !given.has 'd'
  let fileText := s.text tree (s.sort tree files)
  let headers := 1 < paths.length || given.has 'R'
  let blocks := (s.sort tree directories).map (listDirectory s tree headers maxLevels)
  let blocks := if files.isEmpty then blocks else fileText :: blocks
  let status ← print ("\n".intercalate blocks)
  return if found.length < paths.length then 2 else status

/-! ## Descriptions -/

/-- The kind of an entry in words. -/
def kindText (tree : FileTree) (entry : Entry) : String := kindName tree entry

/-- A description of an entry after a format, in at most `n` steps. -/
def describeWithin (tree : FileTree) (path : String) (place : Place) (entry : Entry) :
    (n : Nat) → List Char → String
  | 0, _ | _, [] => ""
  | n + 1, '%' :: rest =>
    match Format.conversion? rest with
    | none => "%"
    | some (c, after) =>
      let time := tree.mtimeOf entry
      let text := match c.kind with
        | 'n' => path
        | 'N' => quote path ++ (match entry with
          | .link target => " -> " ++ quote (Bytewise.ofText target)
          | _ => "")
        | 's' => toString (sizeOfEntry tree entry)
        | 'F' => kindText tree entry
        | 'a' => String.ofList (Nat.toDigits 8 (tree.modeOf entry))
        | 'A' => modeText tree entry
        | 'f' =>
          let kind := match entry with
            | .directory _ _ => 0o040000
            | .link _ => 0o120000
            | .queue _ => 0o010000
            | .device _ => 0o020000
            | _ => 0o100000
          String.ofList (Nat.toDigits 16 (kind + tree.modeOf entry))
        | 'x' | 'y' | 'z' | 'w' => Date.format time "%Y-%m-%d %H:%M:%S.%N %z"
        | 'X' | 'Y' | 'Z' | 'W' => toString (time.fdiv 1000000000)
        | 'U' | 'G' => "root"
        | 'u' | 'g' | 't' | 'T' => "0"
        | 'h' => toString (namesOfEntry tree place entry)
        | 'i' => toString (serialOf place entry)
        | 'b' => toString (blocksOf tree entry * 2)
        | 'B' => "512"
        | 'o' => "4096"
        | 'd' | 'D' => "1"
        | 'm' => "/"
        | '%' => "%"
        | _ => "?"
      c.pad text ++ describeWithin tree path place entry n after
  | n + 1, c :: rest => String.singleton c ++ describeWithin tree path place entry n rest

def stat : Tool := fun _ words => do
  let table := OptionTable.of "Lfc:t" [("format:", 'c'), ("printf:", 'p'), ("dereference", 'L'),
    ("terse", 't'), ("file-system", 'f')]
  let given ← readOptions 1 table true words
  if given.operands.isEmpty then usageFault 1 "missing operand"
  forEach given.operands fun path => do
    match ← if given.has 'L' then lookUp path else lookAt path with
    | .error fault =>
      complainAsTool ("cannot statx " ++ quote path ++ ": " ++ fault.message)
      return false
    | .ok (place, entry) =>
      let tree := (← scene).tree
      let describe (format : String) : String :=
        describeWithin tree path place entry format.length.succ format.toList
      let usual := "  File: %N\n  Size: %-10s\tBlocks: %-10b IO Block: %-6o %F\nDevice: 0,1\tInode: %-11i Links: %h\nAccess: (0%a/%A)  Uid: (    0/    root)   Gid: (    0/    root)\nAccess: %x\nModify: %y\nChange: %z\n Birth: %w"
      match given.find? 'p', given.find? 'c' with
      | some format, _ => say (describe (Printf.unescaped true format).1)
      | none, some format => say (describe format ++ "\n")
      | none, none => say (describe usual ++ "\n")
      return true

/-! ## Searching -/

/-- Comparisons with a number: more than it, less, or equal. -/
inductive Bound where
  | more (n : Nat)
  | less (n : Nat)
  | equal (n : Nat)
deriving DecidableEq, Repr

def Bound.holds (b : Bound) (value : Nat) : Bool :=
  match b with
  | more n => n < value
  | less n => value < n
  | equal n => value = n

/-- A bound that a word writes. -/
def Bound.ofText? (text : String) : Option Bound :=
  match text.toList with
  | '+' :: rest => (String.ofList rest).toNat?.map .more
  | '-' :: rest => (String.ofList rest).toNat?.map .less
  | _ => text.toNat?.map .equal

/-- What a search asks of each thing it comes by, or does with it. -/
inductive Criterion where
  | always (holds : Bool)
  | named (pattern : String) (wholePath anyCase : Bool)
  | kind (letters : List Char)
  | isEmpty
  | newer (than : Timestamp)
  | size (bound : Bound) (unit : Nat)
  | links (bound : Bound)
  | age (bound : Bound) (unit : Nat)
  | mode (bits : Nat) (way : Char)
  | runnable
  | print (ending : String)
  | printFormat (format : String)
  | call (words : List String) (together : Bool)
  | delete
  | prune
  | quit
  | not (c : Criterion)
  | both (a b : Criterion)
  | either (a b : Criterion)
  | after (a b : Criterion)

/-- Whether something is done besides asking. -/
def Criterion.acts : Criterion → Bool
  | print _ | printFormat _ | call _ _ | delete | quit => true
  | not c => c.acts
  | both a b | either a b | after a b => a.acts || b.acts
  | _ => false

/-- Settings of a search, with the fault that was found in its words. -/
structure FindSettings where
  minDepth : Nat
  maxDepth : Nat
  insideFirst : Bool
  now : Timestamp
  tree : FileTree
  here : Place

/-- Steps that read the words of a search. -/
abbrev FindReading := StateT (List String × FindSettings) (Except String)

namespace Criterion

/-- Takes the argument of a word. -/
def argument (word : String) : FindReading String := do
  match (← get).1 with
  | argument :: rest =>
    modify fun (_, s) => (rest, s)
    return argument
  | [] => throw ("missing argument to \x60" ++ word ++ "'")

/-- The words of a call up to its end, and whether things are passed together. -/
def callWords : List String → Option (List String × Bool × List String)
  | [] => none
  | ";" :: rest => some ([], false, rest)
  | "\x7b\x7d" :: "+" :: rest => some (["\x7b\x7d"], true, rest)
  | word :: rest => (callWords rest).map fun (words, together, rest) => (word :: words, together, rest)

/-- The bound of an argument. -/
def bound (word : String) : FindReading Bound := do
  let text ← argument word
  match Bound.ofText? text with
  | some bound => return bound
  | none => throw ("invalid argument \x60" ++ text ++ "' to \x60" ++ word ++ "'")

/-- Reads what a word that begins with a hyphen asks. -/
def ofWord (word : String) : FindReading Criterion := do
  match word with
  | "-name" => return .named (← argument word) false false
  | "-iname" => return .named (← argument word) false true
  | "-path" | "-wholename" => return .named (← argument word) true false
  | "-ipath" => return .named (← argument word) true true
  | "-type" =>
    let letters := ((← argument word).splitOn ",").flatMap String.toList
    match letters.find? fun c => !"bcdpfls".toList.contains c with
    | some c => throw ("Unknown argument to -type: " ++ String.singleton c)
    | none => return .kind letters
  | "-empty" => return .isEmpty
  | "-newer" =>
    let path ← argument word
    let s := (← get).2
    match s.tree.lookUp s.here (Bytewise.toText path) with
    | .ok (_, entry) => return .newer (s.tree.mtimeOf entry)
    | .error fault => throw ("'" ++ path ++ "': " ++ fault.message)
  | "-newermt" =>
    let text ← argument word
    match Date.ofText? (← get).2.now text with
    | some time => return .newer time
    | none => throw ("I cannot figure out how to interpret '" ++ text ++ "' as a date or time")
  | "-size" =>
    let text ← argument word
    let (number, unit) := match text.toList.getLast? with
      | some 'c' => ((text.dropEnd 1).toString, 1)
      | some 'w' => ((text.dropEnd 1).toString, 2)
      | some 'b' => ((text.dropEnd 1).toString, 512)
      | some 'k' => ((text.dropEnd 1).toString, 1024)
      | some 'M' => ((text.dropEnd 1).toString, 1048576)
      | some 'G' => ((text.dropEnd 1).toString, 1073741824)
      | _ => (text, 512)
    match Bound.ofText? number with
    | some bound => return .size bound unit
    | none => throw ("Invalid argument \x60" ++ text ++ "' to -size")
  | "-links" => return .links (← bound word)
  | "-mtime" => return .age (← bound word) 86400
  | "-mmin" => return .age (← bound word) 60
  | "-perm" =>
    let text ← argument word
    let (way, wanted) := match text.toList with
      | '-' :: rest => ('-', String.ofList rest)
      | '/' :: rest => ('/', String.ofList rest)
      | _ => ('=', text)
    match changedMode? 0 false 0 wanted with
    | some bits => return .mode bits way
    | none => throw ("invalid mode '" ++ text ++ "'")
  | "-executable" => return .runnable
  | "-readable" | "-writable" | "-true" => return .always true
  | "-false" => return .always false
  | "-user" | "-group" | "-uid" | "-gid" =>
    let text ← argument word
    return .always (text = "root" || text = "0")
  | "-print" => return .print "\n"
  | "-print0" => return .print "\x00"
  | "-printf" => return .printFormat (Printf.unescaped true (← argument word)).1
  | "-exec" | "-execdir" | "-ok" =>
    match callWords (← get).1 with
    | some (words, together, rest) =>
      modify fun (_, s) => (rest, s)
      return .call words together
    | none => throw ("missing argument to \x60" ++ word ++ "'")
  | "-delete" =>
    modify fun (words, s) => (words, { s with insideFirst := true })
    return .delete
  | "-prune" => return .prune
  | "-quit" => return .quit
  | "-depth" | "-d" =>
    modify fun (words, s) => (words, { s with insideFirst := true })
    return .always true
  | "-maxdepth" | "-mindepth" =>
    let text ← argument word
    match number? text with
    | some n =>
      modify fun (words, s) => (words, if word = "-maxdepth" then { s with maxDepth := n }
        else { s with minDepth := n })
      return .always true
    | none => throw ("Expected a positive decimal integer argument to " ++ word ++ ", but got '" ++
        text ++ "'")
  | "-mount" | "-xdev" | "-noleaf" | "-follow" | "-warn" | "-nowarn" => return .always true
  | _ =>
    if word.startsWith "-" then throw ("unknown predicate \x60" ++ word ++ "'")
    else throw ("paths must precede expression: \x60" ++ word ++ "'")

/-- Takes a word if it is the next one. -/
def take (wanted : List String) : FindReading Bool := do
  match (← get).1 with
  | word :: rest =>
    if wanted.contains word then
      modify fun (_, s) => (rest, s)
      return true
    else return false
  | [] => return false

mutual

/-- Reads a criterion after any exclamation marks. -/
def primary : (n : Nat) → FindReading Criterion
  | 0 => throw "expression too long"
  | n + 1 => do
    if ← take ["!", "-not"] then return .not (← primary n)
    if ← take ["("] then
      let inner ← sequence n
      if ← take [")"] then return inner
      throw "invalid expression; I was expecting to find a ')' somewhere but did not see one."
    match (← get).1 with
    | word :: rest =>
      modify fun (_, s) => (rest, s)
      ofWord word
    | [] => throw "invalid expression; you have used a binary operator with nothing after it."
termination_by structural n => n

/-- Reads criteria that all have to hold. -/
def conjunction : (n : Nat) → FindReading Criterion
  | 0 => throw "expression too long"
  | n + 1 => do
    let first ← primary n
    let _ ← take ["-a", "-and"]
    match (← get).1.head? with
    | none | some ")" | some "-o" | some "-or" | some "," => return first
    | some _ => return .both first (← conjunction n)
termination_by structural n => n

/-- Reads criteria of which one has to hold. -/
def disjunction : (n : Nat) → FindReading Criterion
  | 0 => throw "expression too long"
  | n + 1 => do
    let first ← conjunction n
    if ← take ["-o", "-or"] then return .either first (← disjunction n)
    return first
termination_by structural n => n

/-- Reads criteria of which the last one counts. -/
def sequence : (n : Nat) → FindReading Criterion
  | 0 => throw "expression too long"
  | n + 1 => do
    let first ← disjunction n
    if ← take [","] then return .after first (← sequence n)
    return first
termination_by structural n => n

end

end Criterion

/-- What a search has come by: things to pass to calls, with the words of those, whether it is over, and
its status. -/
structure FindState where
  batches : List (List String × List String)
  isOver : Bool
  status : Nat

/-- Something that a search has come by. -/
structure FoundThing where
  start : String
  path : String
  depth : Nat
  place : Place
  entry : Entry

/-- A description of something that was found, after a format, in at most `n` steps. -/
def foundText (tree : FileTree) (f : FoundThing) : (n : Nat) → List Char → String
  | 0, _ | _, [] => ""
  | n + 1, '%' :: rest =>
    match Format.conversion? rest with
    | none => "%"
    | some (c, after) =>
      let time := tree.mtimeOf f.entry
      let mode := tree.modeOf f.entry
      let (text, after) := match c.kind, after with
        | 'p', _ => (f.path, after)
        | 'f', _ => (if f.path = "/" then "/" else baseName f.path, after)
        | 'h', _ =>
          (if f.path.toList.contains '/' then dirName f.path else ".", after)
        | 'P', _ =>
          let rest := (f.path.drop f.start.length).toString
          (if rest.startsWith "/" then (rest.drop 1).toString else rest, after)
        | 'H', _ => (f.start, after)
        | 's', _ => (toString (sizeOfEntry tree f.entry), after)
        | 'm', _ => (String.ofList (Nat.toDigits 8 mode), after)
        | 'M', _ => (modeText tree f.entry, after)
        | 'y', _ =>
          let letter := kindLetter f.entry
          (String.singleton (if letter = '-' then 'f' else letter), after)
        | 'd', _ => (toString f.depth, after)
        | 'n', _ => (toString (namesOfEntry tree f.place f.entry), after)
        | 'u', _ | 'g', _ => ("root", after)
        | 'U', _ | 'G', _ => ("0", after)
        | 'l', _ => (match f.entry with
          | .link target => Bytewise.ofText target
          | _ => "", after)
        | 't', _ => (Date.format time "%a %b %e %H:%M:%S.%N0 %Y", after)
        | 'T', '@' :: after => (Date.format time "%s.%N0", after)
        | 'T', k :: after => (Date.format time (String.ofList ['%', k]), after)
        | '%', _ => ("%", after)
        | other, _ => (String.ofList ['%', other], after)
      c.pad text ++ foundText tree f n after
  | n + 1, c :: rest => String.singleton c ++ foundText tree f n rest

/-- Calls a program for something that was found. -/
def callFor (become : Becoming) (words : List String) : Run Nat := do
  let ending ← callIn become words fun fault => do
    complainAsTool (quote (words.headD "") ++ ": " ++ fault.message)
    return 1
  return ending.status

/-- Whether a criterion holds of something that was found, and whether what is in it is passed over. -/
def Criterion.check (become : Becoming) (s : FindSettings) (f : FoundThing) :
    Criterion → StateT FindState Run (Bool × Bool)
  | .always holds => return (holds, false)
  | .named pattern wholePath anyCase => do
    let text := if wholePath then f.path else if f.path = "/" then "/" else baseName f.path
    let fold (text : String) : String := if anyCase then text.toLower else text
    return ((Pattern.ofText (fold pattern)).matchesText (fold text).toList, false)
  | .kind letters =>
    let letter := kindLetter f.entry
    return (letters.contains (if letter = '-' then 'f' else letter), false)
  | .isEmpty => do
    let tree := (← scene).tree
    return (match f.entry with
      | .directory _ _ => (tree.names f.place).isEmpty
      | .file id => (tree.body id).bytes.isEmpty
      | _ => false, false)
  | .newer than => do return (than < (← scene).tree.mtimeOf f.entry, false)
  | .size bound unit => do
    let size := sizeOfEntry (← scene).tree f.entry
    return (bound.holds ((size + unit - 1) / unit), false)
  | .links bound => do return (bound.holds (namesOfEntry (← scene).tree f.place f.entry), false)
  | .age bound unit => do
    let age := (s.now - (← scene).tree.mtimeOf f.entry).toNat / 1000000000
    return (bound.holds (age / unit), false)
  | .mode bits way => do
    let mode := (← scene).tree.modeOf f.entry
    return (match way with
      | '-' => mode &&& bits = bits
      | '/' => bits = 0 || mode &&& bits ≠ 0
      | _ => mode = bits, false)
  | .runnable => do return ((← scene).tree.modeOf f.entry &&& 0o111 ≠ 0, false)
  | .print ending => do
    say (f.path ++ ending)
    return (true, false)
  | .printFormat format => do
    say (foundText (← scene).tree f format.length.succ format.toList)
    return (true, false)
  | .call words together => do
    if together then
      modify fun state =>
        let others := state.batches.filter (·.1 ≠ words)
        let before := (state.batches.lookup words).getD []
        { state with batches := others ++ [(words, before ++ [f.path])] }
      return (true, false)
    else
      let status ← callFor become (words.map fun word => word.replace "\x7b\x7d" f.path)
      return (status = 0, false)
  | .delete => do
    let path := Bytewise.toText f.path
    let isDirectory := f.entry.isDirectory
    match ← change fun tree now here =>
      if isDirectory then tree.removeDirectory now here path else tree.remove now here path with
    | .ok _ => return (true, false)
    | .error fault =>
      complainAsTool ("cannot delete " ++ quote f.path ++ ": " ++ fault.message)
      modify fun state => { state with status := 1 }
      return (false, false)
  | .prune => return (true, true)
  | .quit => do
    modify fun state => { state with isOver := true }
    return (true, false)
  | .not c => do
    let (holds, prunes) ← c.check become s f
    return (!holds, prunes)
  | .both a b => do
    let (holds, prunes) ← a.check become s f
    if !holds then return (false, prunes)
    let (other, otherPrunes) ← b.check become s f
    return (other, prunes || otherPrunes)
  | .either a b => do
    let (holds, prunes) ← a.check become s f
    if holds then return (true, prunes)
    let (other, otherPrunes) ← b.check become s f
    return (other, prunes || otherPrunes)
  | .after a b => do
    let (_, prunes) ← a.check become s f
    let (other, otherPrunes) ← b.check become s f
    return (other, prunes || otherPrunes)

/-- Searches a path and what is below it, in at most `n` steps into directories. -/
def searchFrom (become : Becoming) (s : FindSettings) (criterion : Criterion) :
    (n : Nat) → (start : String) → (depth : Nat) → (path : String) → StateT FindState Run Unit
  | 0, _, _, _ => return ()
  | n + 1, start, depth, path => do
    if (← get).isOver then return ()
    match ← lookAt path with
    | .error fault =>
      complainAsTool (quote path ++ ": " ++ fault.message)
      modify fun state => { state with status := 1 }
    | .ok (place, entry) =>
      let found : FoundThing := ⟨start, path, depth, place, entry⟩
      let checkHere : StateT FindState Run Bool := do
        if depth < s.minDepth then return false
        return (← criterion.check become s found).2
      let goInside : StateT FindState Run Unit := do
        if entry.isDirectory && depth < s.maxDepth then
          for name in (← scene).tree.names place do
            searchFrom become s criterion n start (depth + 1) (inside path (Bytewise.ofText name))
      if s.insideFirst then
        goInside
        if !(← get).isOver then
          let _ ← checkHere
      else if !(← checkHere) then goInside

def find : Tool := fun become words => do
  let isExpression (word : String) : Bool :=
    (word.startsWith "-" && 1 < word.length) || word = "!" || word = "("
  let words := words.dropWhile fun word => ["-H", "-L", "-P"].contains word
  let paths := words.takeWhile fun word => !isExpression word
  let expression := words.drop paths.length
  let s := (← scene)
  let settings : FindSettings := ⟨0, 100000, false, s.now, s.tree, (← process).here⟩
  let read := if expression.isEmpty then .ok (Criterion.always true, [], settings)
    else (Criterion.sequence (8 * expression.length + 8)).run (expression, settings)
  match read with
  | .error text => toolFault 1 text
  | .ok (criterion, rest, settings) =>
    if let word :: _ := rest then
      toolFault 1 (if word = ")" then "invalid expression; you have too many ')'"
        else "paths must precede expression: \x60" ++ word ++ "'")
    let criterion := if criterion.acts then criterion else .both criterion (.print "\n")
    let paths := if paths.isEmpty then ["."] else paths
    let (_, state) ← (paths.forM fun path =>
      searchFrom become settings criterion maxLevels path 0 path).run ⟨[], false, 0⟩
    let status ← state.batches.foldlM (fun status (words, found) => do
      let called ← callFor become (words.flatMap fun word =>
        if word = "\x7b\x7d" then found else [word])
      return if called = 0 then status else 1) state.status
    return status

end Rebuild.Shell.Tool
