import Rebuild.Digest
import Rebuild.Shell.Tool.Columns

/-!
# Tools that show bytes

Tools that write the bytes of files in digits or in letters, and tools that compute digests of them.
-/

namespace Rebuild.Shell.Tool

open Run

/-! ## Dumps -/

/-- How a field of a dump is written: its bytes as a number to a base, with or without a sign, or as a
character, possibly by name. -/
inductive FieldKind where
  | unsigned (base : Nat)
  | signed
  | character
  | named
deriving DecidableEq, Repr

/-- A row of fields for the bytes of a line: how they are written, how many bytes each has, and whether the
line ends with the characters. -/
structure FieldRow where
  kind : FieldKind
  bytes : Nat
  showsText : Bool
deriving Repr

namespace FieldRow

/-- How many columns a field takes. -/
def width (row : FieldRow) : Nat :=
  match row.kind with
  | .unsigned 8 => (row.bytes * 8 + 2) / 3
  | .unsigned 16 => row.bytes * 2
  | .unsigned _ => (Nat.toDigits 10 (Nat.pow 256 row.bytes - 1)).length
  | .signed => (Nat.toDigits 10 (Nat.pow 256 row.bytes / 2)).length + 1
  | .character | .named => 3

/-- The names of the characters that cannot be seen. -/
def names : List String :=
  ["nul", "soh", "stx", "etx", "eot", "enq", "ack", "bel", "bs", "ht", "nl", "vt", "ff", "cr", "so",
    "si", "dle", "dc1", "dc2", "dc3", "dc4", "nak", "syn", "etb", "can", "em", "sub", "esc", "fs",
    "gs", "rs", "us", "sp"]

/-- A byte as a character. -/
def character (b : Nat) : String :=
  match b with
  | 0 => "\\0"
  | 7 => "\\a"
  | 8 => "\\b"
  | 9 => "\\t"
  | 10 => "\\n"
  | 11 => "\\v"
  | 12 => "\\f"
  | 13 => "\\r"
  | _ =>
    if 32 ≤ b && b < 127 then String.singleton (Char.ofNat b)
    else ((toString (1000 + octal b)).drop 1).toString

/-- Text at the right side of some columns. -/
def alignRight (width : Nat) (fill : Char) (text : String) : String :=
  String.ofList (List.replicate (width - text.length) fill) ++ text

/-- A field for bytes. -/
def field (row : FieldRow) (bytes : List Nat) : String :=
  let n := Digest.ofLittleEndian bytes
  match row.kind with
  | .unsigned 10 => toString n
  | .unsigned base => alignRight row.width '0' (String.ofList (Nat.toDigits base n))
  | .signed => toString (Int.bmod n (Nat.pow 256 row.bytes))
  | .character => character n
  | .named =>
    let b := n % 128
    if b = 127 then "del" else (names[b]?).getD (String.singleton (Char.ofNat b))

/-- The fields for a line, each aligned so that all of them take a number of columns if the line is full,
where a full line has `perLine` bytes. -/
def fields (row : FieldRow) (perLine columns : Nat) (bytes : List Nat) : String :=
  let count := perLine / row.bytes
  let extra := columns - count * (row.width + 1)
  let padTo (i : Nat) : Nat := extra * (count - i) / count
  String.join ((Digest.pieces row.bytes bytes.length bytes).zipIdx.map fun (piece, i) =>
    alignRight (row.width + 1 + (padTo i - padTo (i + 1))) ' ' (row.field piece))

/-- The rows that the type in a word asks for. -/
def ofType (word : String) : (n : Nat) → List Char → Except String (List FieldRow)
  | 0, _ | _, [] => .ok []
  | n + 1, c :: rest => do
    let finish (kind : FieldKind) (bytes : Nat) (rest : List Char) : Except String (List FieldRow) := do
      let (isShown, rest) := match rest with
        | 'z' :: rest => (true, rest)
        | _ => (false, rest)
      return ⟨kind, bytes, isShown⟩ :: (← ofType word n rest)
    let sized (kind : FieldKind) : Except String (List FieldRow) :=
      match rest with
      | 'C' :: rest => finish kind 1 rest
      | 'S' :: rest => finish kind 2 rest
      | 'I' :: rest => finish kind 4 rest
      | 'L' :: rest => finish kind 8 rest
      | _ =>
        let digits := rest.takeWhile Char.isDigit
        if digits.isEmpty then finish kind 4 rest
        else
          let size := (String.ofList digits).toNat?.getD 0
          if [1, 2, 4, 8].contains size then finish kind size (rest.drop digits.length)
          else .error ("invalid type string " ++ Run.quote word ++
            ";\nthis system doesn't provide a " ++ toString size ++ "-byte integral type")
    match c with
    | 'a' => finish .named 1 rest
    | 'c' => finish .character 1 rest
    | 'd' => sized .signed
    | 'o' => sized (.unsigned 8)
    | 'u' => sized (.unsigned 10)
    | 'x' => sized (.unsigned 16)
    | _ => .error ("invalid character " ++ Run.quote (String.singleton c) ++ " in type string " ++
        Run.quote word)

/-- The row that an option of one letter asks for. -/
def ofLetter? (letter : Char) : Option FieldRow :=
  match letter with
  | 'a' => some ⟨.named, 1, false⟩
  | 'b' => some ⟨.unsigned 8, 1, false⟩
  | 'c' => some ⟨.character, 1, false⟩
  | 'd' => some ⟨.unsigned 10, 2, false⟩
  | 'i' => some ⟨.signed, 4, false⟩
  | 'l' => some ⟨.signed, 8, false⟩
  | 'o' => some ⟨.unsigned 8, 2, false⟩
  | 's' => some ⟨.signed, 2, false⟩
  | 'x' => some ⟨.unsigned 16, 2, false⟩
  | _ => none

end FieldRow

/-- Where a line of a dump begins, in digits. -/
def dumpAddress (base : Char) (n : Nat) : String :=
  match base with
  | 'n' => ""
  | 'd' => FieldRow.alignRight 7 '0' (toString n)
  | 'x' => FieldRow.alignRight 6 '0' (String.ofList (Nat.toDigits 16 n))
  | _ => FieldRow.alignRight 7 '0' (String.ofList (Nat.toDigits 8 n))

/-- The lines of a dump for the bytes at an address. -/
def dumpLine (rows : List FieldRow) (perLine : Nat) (start : String) (line : List Nat) :
    List String :=
  let columns := (rows.map fun row => perLine / row.bytes * (row.width + 1)).foldl max 0
  let size := (rows.map (·.bytes)).foldl max 1
  let padded := line ++ List.replicate ((size - line.length % size) % size) 0
  rows.zipIdx.map fun (row, i) =>
    let fields := row.fields perLine columns
      (padded.take ((line.length + row.bytes - 1) / row.bytes * row.bytes))
    let front := if i = 0 then start else String.ofList (List.replicate start.length ' ')
    let text := String.ofList (line.map fun b => if 32 ≤ b && b < 127 then Char.ofNat b else '.')
    front ++ fields ++ (if row.showsText then
      String.ofList (List.replicate (columns - fields.length) ' ') ++ "  >" ++ text ++ "<"
    else "")

/-- A dump from an address. Of lines that are the same only the first is shown, unless `showsAll` holds. -/
def dump (rows : List FieldRow) (perLine : Nat) (base : Char) (showsAll : Bool) :
    (address : Nat) → (before : List Nat) → (wasSame : Bool) → List (List Nat) → List String
  | _, _, _, [] => []
  | address, before, wasSame, line :: rest =>
    let isSame := !showsAll && line = before && line.length = perLine
    let shown := if isSame then (if wasSame then [] else ["*"])
      else dumpLine rows perLine (dumpAddress base address) line
    shown ++ dump rows perLine base showsAll (address + perLine) line isSame rest

/-- Writes bytes in digits. -/
def od : Tool := fun _ words => do
  let table := OptionTable.of "A:abcdij:lN:ost:vw:x" [("address-radix:", 'A'), ("skip-bytes:", 'j'),
    ("read-bytes:", 'N'), ("format:", 't'), ("output-duplicates", 'v'), ("width=", 'w')]
  let given ← readOptions 1 table true (words.map fun word => if word = "-w" then "-w32" else word)
  let rows ← given.options.mapM fun (letter, word) =>
    if letter = 't' then
      match FieldRow.ofType word (word.length + 1) word.toList with
      | .ok rows => return rows
      | .error fault => toolFault 1 fault
    else return (FieldRow.ofLetter? letter).toList
  let rows := rows.flatten
  let rows := if rows.isEmpty then [⟨.unsigned 8, 2, false⟩] else rows
  let base := ((given.find? 'A').bind (·.toList.head?)).getD 'o'
  let some skip := sizeOf? ((given.find? 'j').getD "0")
    | toolFault 1 ("invalid -j argument " ++ quote ((given.find? 'j').getD ""))
  let limit ← match given.find? 'N' with
    | none => pure none
    | some word =>
      match sizeOf? word with
      | some n => pure (some n)
      | none => toolFault 1 ("invalid -N argument " ++ quote word)
  let asked := (given.find? 'w').map fun word => if word = "" then 32 else (number? word).getD 16
  let perLine := max 1 (asked.getD 16)
  let (found, status) ← readOperands given.operands
  if found.isEmpty then return status
  let bytes := (found.flatMap (·.2)).map Char.toNat
  if bytes.length < skip then toolFault 1 "cannot skip past end of combined input"
  let bytes := bytes.drop skip
  let bytes := (limit.map bytes.take).getD bytes
  let lines := dump rows perLine base (given.has 'v') skip [] false
    (Digest.pieces perLine bytes.length bytes)
  let last := if base = 'n' then [] else [dumpAddress base (skip + bytes.length)]
  return max status (← print (Lines.join (lines ++ last)))

/-! ## Letters for bits -/

/-- How bytes are written with letters for groups of bits. -/
structure Lettering where
  alphabet : String
  /-- How many bits a letter stands for, and how many letters and bytes fit to each other. -/
  bits : Nat
  letters : Nat
  bytes : Nat

def lettering64 : Lettering :=
  ⟨"ABCDEFGHIJKLMNOPQRSTUVWXYZabcdefghijklmnopqrstuvwxyz0123456789+/", 6, 4, 3⟩

def lettering32 : Lettering :=
  ⟨"ABCDEFGHIJKLMNOPQRSTUVWXYZ234567", 5, 8, 5⟩

namespace Lettering

/-- The letters for a group of bytes, filled up with equals signs. -/
def encodeGroup (l : Lettering) (group : List Nat) : List Char :=
  let n := (group ++ List.replicate (l.bytes - group.length) 0).foldl (fun n b => n * 256 + b) 0
  let used := (group.length * 8 + l.bits - 1) / l.bits
  (List.range l.letters).map fun i =>
    if i < used then
      (l.alphabet.toList[n / Nat.pow 2 (l.bits * (l.letters - 1 - i)) % Nat.pow 2 l.bits]?).getD '='
    else '='

/-- The letters for bytes. -/
def encode (l : Lettering) (bytes : List Nat) : List Char :=
  (Digest.pieces l.bytes bytes.length bytes).flatMap l.encodeGroup

/-- The bytes that a group of letters stands for, and whether the group makes sense. -/
def decodeGroup (l : Lettering) (group : List Char) : List Nat × Bool :=
  let letters := group.takeWhile (· ≠ '=')
  let values := (letters.map l.alphabet.toList.idxOf).takeWhile (· < l.alphabet.length)
  let bytes := values.length * l.bits / 8
  let n := (values ++ List.replicate (l.letters - values.length) 0).foldl
    (fun n v => n * Nat.pow 2 l.bits + v) 0
  let all := (List.range l.bytes).map fun i => n / Nat.pow 256 (l.bytes - 1 - i) % 256
  let isWhole := values.length = letters.length && group.length = l.letters &&
    (group.drop letters.length).all (· = '=') &&
    (bytes * 8 + l.bits - 1) / l.bits = values.length && 0 < values.length
  (all.take bytes, isWhole)

/-- The bytes that groups of letters stand for, up to the first one that makes no sense. -/
def decode (l : Lettering) : List (List Char) → List Nat × Bool
  | [] => ([], true)
  | group :: rest =>
    let (bytes, isWhole) := l.decodeGroup group
    if isWhole then
      let (others, isWhole) := decode l rest
      (bytes ++ others, isWhole)
    else (bytes, false)

end Lettering

/-- Writes bytes in letters, or reads them back. -/
def lettered (l : Lettering) : Tool := fun _ words => do
  let table := OptionTable.of "diw:" [("decode", 'd'), ("ignore-garbage", 'i'), ("wrap:", 'w')]
  let given ← readOptions 1 table true words
  if let [_, other] := given.operands.take 2 then usageFault 1 ("extra operand " ++ quote other)
  let wrap := (given.find? 'w').getD "76"
  let some columns := number? wrap | toolFault 1 ("invalid wrap size: " ++ quote wrap)
  match ← readOperand (given.operands.headD "-") with
  | .error fault =>
    complainOf (given.operands.headD "-") fault
    return 1
  | .ok text =>
    if given.has 'd' then
      let letters := text.filter fun c => c ≠ '\n' &&
        (!given.has 'i' || c = '=' || l.alphabet.toList.contains c)
      let (bytes, isWhole) := l.decode (Digest.pieces l.letters letters.length letters)
      let status ← print (String.ofList (bytes.map Char.ofNat))
      if isWhole then return status
      toolFault 1 "invalid input"
    else
      let letters := l.encode (text.map Char.toNat)
      if columns = 0 then print (String.ofList letters)
      else print (Lines.join ((Digest.pieces columns letters.length letters).map String.ofList))

def base64 : Tool := lettered lettering64

def base32 : Tool := lettered lettering32

/-! ## Digests -/

/-- How many of something, with a word for one and a word for others. -/
def countOf (n : Nat) (one others : String) : String :=
  toString n ++ " " ++ if n = 1 then one else others

/-- What a line of a list of digests says: the digest and the path. -/
def digestLine? (size : Nat) (line : String) : Option (String × String) :=
  let chars := line.toList
  let digest := chars.takeWhile fun c => (Numeral.digit? 16 c).isSome
  match chars.drop digest.length with
  | ' ' :: mark :: path =>
    if digest.length = size && (mark = ' ' || mark = '*') && !path.isEmpty then
      some ((String.ofList digest).toLower, String.ofList path)
    else none
  | _ => none

/-- Checks the digests that a list tells. -/
def checkDigests (given : Given) (title : String) (digest : List Nat → List Nat) (list : String) :
    Run Bool := do
  match ← readOperand list with
  | .error fault =>
    complainOf list fault
    return false
  | .ok text =>
    let size := (digest []).length * 2
    let lines := Lines.of text
    let (formatted, faulty, unread, different) ← lines.zipIdx.foldlM
      (fun (formatted, faulty, unread, different) (line, i) => do
        match digestLine? size line with
        | none =>
          if given.has 'w' then
            complainAsTool (list ++ ": " ++ toString (i + 1) ++ ": improperly formatted " ++ title ++
              " checksum line")
          return (formatted, faulty + 1, unread, different)
        | some (wanted, path) =>
          match ← readOperand path with
          | .error fault =>
            if given.has 'm' && fault = .missing then return (formatted + 1, faulty, unread, different)
            complainOf path fault
            if !given.has 'S' then say (path ++ ": FAILED open or read\n")
            return (formatted + 1, faulty, unread + 1, different)
          | .ok text =>
            let isSame := Digest.hexadecimal (digest (text.map Char.toNat)) = wanted
            if !given.has 'S' && !(isSame && given.has 'q') then
              say (path ++ (if isSame then ": OK\n" else ": FAILED\n"))
            return (formatted + 1, faulty, unread, if isSame then different else different + 1))
      (0, 0, 0, 0)
    if formatted = 0 then
      complainAsTool (list ++ ": no properly formatted checksum lines found")
      return false
    if !given.has 'S' then
      if 0 < faulty then
        complainAsTool ("WARNING: " ++
          countOf faulty "line is improperly formatted" "lines are improperly formatted")
      if 0 < unread then
        complainAsTool ("WARNING: " ++
          countOf unread "listed file could not be read" "listed files could not be read")
      if 0 < different then
        complainAsTool ("WARNING: " ++ countOf different "computed checksum did NOT match"
          "computed checksums did NOT match")
    return unread = 0 && different = 0 && (faulty = 0 || !given.has '!')

/-- Prints or checks digests. -/
def digesting (title : String) (digest : List Nat → List Nat) : Tool := fun _ words => do
  let table := OptionTable.of "bctwz" [("binary", 'b'), ("check", 'c'), ("text", 't'), ("warn", 'w'),
    ("zero", 'z'), ("tag", 'T'), ("status", 'S'), ("quiet", 'q'), ("ignore-missing", 'm'),
    ("strict", '!')]
  let given ← readOptions 1 table true words
  let paths := if given.operands.isEmpty then ["-"] else given.operands
  if given.has 'c' then forEach paths (checkDigests given title digest)
  else
    forEach paths fun path => do
      match ← readOperand path with
      | .error fault =>
        complainOf path fault
        return false
      | .ok text =>
        let shown := Digest.hexadecimal (digest (text.map Char.toNat))
        let ending := if given.has 'z' then "\x00" else "\n"
        say (if given.has 'T' then title ++ " (" ++ path ++ ") = " ++ shown ++ ending
          else shown ++ (if given.lastOf ['b', 't'] = some 'b' then " *" else "  ") ++ path ++ ending)
        return true

def md5sum : Tool := digesting "MD5" Digest.md5

def sha1sum : Tool := digesting "SHA1" Digest.sha1

def sha224sum : Tool := digesting "SHA224" Digest.sha224

def sha256sum : Tool := digesting "SHA256" Digest.sha256

def sha384sum : Tool := digesting "SHA384" Digest.sha384

def sha512sum : Tool := digesting "SHA512" Digest.sha512

/-- Prints a check sum for each of some paths, given the bytes and whether there are several. -/
def checkSums (paths : List String) (shown : List Nat → String) : Run Nat := do
  forEach (if paths.isEmpty then ["-"] else paths) fun path => do
    match ← readOperand path with
    | .error fault =>
      complainOf path fault
      return false
    | .ok text =>
      say (shown (text.map Char.toNat) ++ (if paths.isEmpty then "" else " " ++ path) ++ "\n")
      return true

def cksum : Tool := fun become words => do
  let given ← readOptions 1 (OptionTable.of "a:" [("algorithm:", 'a'), ("untagged", 'u')]) true words
  let rest := (if given.has 'u' then [] else ["--tag"]) ++ "--" :: given.operands
  match given.find? 'a' with
  | some "md5" => md5sum become rest
  | some "sha1" => sha1sum become rest
  | some "sha224" => sha224sum become rest
  | some "sha256" => sha256sum become rest
  | some "sha384" => sha384sum become rest
  | some "sha512" => sha512sum become rest
  | _ => checkSums given.operands fun bytes =>
      toString (Digest.cyclic bytes) ++ " " ++ toString bytes.length

def sum : Tool := fun _ words => do
  let given ← readOptions 1 (OptionTable.of "rs" [("sysv", 's')]) true words
  checkSums given.operands fun bytes =>
    if given.lastOf ['r', 's'] = some 's' then
      toString (Digest.plain bytes) ++ " " ++ toString ((bytes.length + 511) / 512)
    else
      FieldRow.alignRight 5 '0' (toString (Digest.turning bytes)) ++ " " ++
        FieldRow.alignRight 5 ' ' (toString ((bytes.length + 1023) / 1024))

end Rebuild.Shell.Tool
