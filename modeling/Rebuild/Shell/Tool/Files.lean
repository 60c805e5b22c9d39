import Rebuild.Shell.Builtin
import Rebuild.Shell.Date

/-!
# Tools that make and remove files

Tools that change what stands in the file tree, or how it may be used, but not what files hold.
-/

namespace Rebuild.Shell.Tool

open Run

/-! ## Paths -/

/-- A path without the separators at its end. -/
def trimSeparators (path : String) : String :=
  let rest := path.toList.reverse.dropWhile (· = '/')
  if rest.isEmpty && path ≠ "" then "/" else String.ofList rest.reverse

/-- The last component of a path. -/
def baseName (path : String) : String :=
  let trimmed := trimSeparators path
  if trimmed = "/" then "/" else ((trimmed.splitOn "/").getLast?).getD ""

/-- The path of the directory around a path. -/
def dirName (path : String) : String :=
  let trimmed := trimSeparators path
  if trimmed = "/" then "/"
  else
    let before := (trimmed.toList.reverse.dropWhile (· ≠ '/')).reverse
    if before.isEmpty then "." else trimSeparators (String.ofList before)

/-- The path of something in a directory. -/
def inside (directory name : String) : String :=
  if directory.endsWith "/" then directory ++ name else directory ++ "/" ++ name

/-- The path that leads to a place from the root. -/
def pathOf (place : Place) : String :=
  Bytewise.ofText ("/" ++ "/".intercalate place)

/-- Whether a path leads to a directory. -/
def leadsToDirectory (path : String) : Run Bool := do
  return match ← lookUp path with
    | .ok (_, entry) => entry.isDirectory
    | .error _ => false

/-- Changes something at a path, and complains about what could not be done. -/
def changing (action path : String) (f : FileTree → Timestamp → Place → Except TreeFault FileTree) :
    Run Bool := do
  match ← change f with
  | .ok _ => return true
  | .error fault =>
    complainAsTool ("cannot " ++ action ++ " " ++ quote path ++ ": " ++ fault.message)
    return false

/-! ## Times -/

/-- The time that `touch` gives, none if it is now. -/
def wantedTime (given : Given) : Run (Option Timestamp) := do
  let now := (← scene).now
  match given.find? 'r', given.find? 't', given.find? 'd' with
  | some path, _, _ =>
    match ← lookUp path with
    | .ok (_, entry) => return some ((← scene).tree.mtimeOf entry)
    | .error fault =>
      toolFault 1 ("failed to get attributes of " ++ quote path ++ ": " ++ fault.message)
  | none, some text, _ =>
    match Date.ofDigits? now text with
    | some time => return some time
    | none => toolFault 1 ("invalid date format " ++ quote text)
  | none, none, some text =>
    match Date.ofText? now text with
    | some time => return some time
    | none => toolFault 1 ("invalid date format " ++ quote text)
  | none, none, none => return none

/-- Gives files a time, making those that are missing. -/
def touch : Tool := fun _ words => do
  let table := OptionTable.of "acd:fhmr:t:" [("no-create", 'c'), ("date:", 'd'), ("reference:", 'r'),
    ("no-dereference", 'h'), ("time:", 'T')]
  let given ← readOptions 1 table true words
  if given.operands.isEmpty then usageFault 1 "missing file operand"
  let time? ← wantedTime given
  let leavesTime := given.has 'a' && !given.has 'm'
  let mode ← newMode 0o666
  forEach given.operands fun path => do
    if path = "-" then return true
    let exists_ := (← lookUp path).toBool
    if given.has 'c' && !exists_ then return true
    let stamp := (← scene).stamp
    match ← change fun tree now here => do
      let path := Bytewise.toText path
      let tree ← if exists_ then pure tree
        else (·.2) <$> tree.openPath now here path ⟨some mode, false⟩
      if leavesTime then return tree
      let place ← tree.resolve here path
      return tree.setMtime place (time?.getD stamp) with
    | .ok _ => return true
    | .error fault =>
      let action := if exists_ then "setting times of " else "cannot touch "
      complainAsTool (action ++ quote path ++ ": " ++ fault.message)
      return false

/-! ## Directories -/

/-- Creates a directory. -/
def addDirectory (path : String) (mode : Nat) : Run (Except TreeFault Unit) :=
  change fun tree now here => tree.make now here (Bytewise.toText path) (.directory now mode)

/-- The paths that lead to a path, one component after the other. -/
def leadingPaths (path : String) : List String :=
  let rec go (before : String) : List String → List String
    | [] => []
    | name :: rest =>
      let path := before ++ name
      (if name = "" then [] else [path]) ++ go (path ++ "/") rest
  go "" (path.splitOn "/")

/-- Creates directories as far as they are missing, and tells which path could not be made. -/
def addDirectories (paths : List String) (mode : Nat) (isVerbose : Bool) :
    Run (Except (String × TreeFault) Unit) :=
  paths.foldlM (fun (found : Except (String × TreeFault) Unit) path => do
    if let .error _ := found then return found
    if ← leadsToDirectory path then return .ok ()
    match ← addDirectory path mode with
    | .ok _ =>
      if isVerbose then say ((← process).name ++ ": created directory " ++ quote path ++ "\n")
      return .ok ()
    | .error fault => return .error (path, fault)) (.ok ())

def mkdir : Tool := fun _ words => do
  let table := OptionTable.of "pm:v" [("parents", 'p'), ("mode:", 'm'), ("verbose", 'v')]
  let given ← readOptions 1 table true words
  if given.operands.isEmpty then usageFault 1 "missing operand"
  let usual ← newMode 0o777
  let mode ← match given.find? 'm' with
    | none => pure usual
    | some text =>
      match changedMode? (← process).mask true 0o777 text with
      | some mode => pure mode
      | none => toolFault 1 ("invalid mode " ++ quote text)
  forEach given.operands fun path => do
    let outcome ← if given.has 'p' then do
        let around := (leadingPaths path).dropLast
        match ← addDirectories around usual (given.has 'v') with
        | .ok _ => addDirectories [path] mode (given.has 'v')
        | failed => pure failed
      else do
        match ← addDirectory path mode with
        | .ok _ =>
          if given.has 'v' then say ((← process).name ++ ": created directory " ++ quote path ++ "\n")
          pure (.ok ())
        | .error fault => pure (.error (path, fault))
    match outcome with
    | .ok _ => return true
    | .error (path, fault) =>
      complainAsTool ("cannot create directory " ++ quote path ++ ": " ++ fault.message)
      return false

def rmdir : Tool := fun _ words => do
  let table := OptionTable.of "pv" [("parents", 'p'), ("verbose", 'v'),
    ("ignore-fail-on-non-empty", 'I')]
  let given ← readOptions 1 table true words
  if given.operands.isEmpty then usageFault 1 "missing operand"
  forEach given.operands fun operand => do
    let paths := if given.has 'p' then (leadingPaths (trimSeparators operand)).reverse else [operand]
    let removed ← paths.foldlM (fun (goesOn, isGood) path => do
      if !goesOn then return (false, isGood)
      if given.has 'v' then say ((← process).name ++ ": removing directory, " ++ quote path ++ "\n")
      match ← change fun tree now here => tree.removeDirectory now here (Bytewise.toText path) with
      | .ok _ => return (true, isGood)
      | .error fault =>
        if fault = .notEmpty && given.has 'I' then return (false, isGood)
        complainAsTool ("failed to remove " ++ quote path ++ ": " ++ fault.message)
        return (false, false)) (true, true)
    return removed.2

/-! ## Removing -/

/-- Asks a question, and tells whether the answer is yes. -/
def asks (question : String) : Run Bool := do
  write 2 (Bytewise.toBytes ((← process).name ++ ": " ++ question ++ " ").toList)
  match ← readLine 0 with
  | .ok (c :: _) => return c = 121 || c = 89
  | _ => return false

/-- What a file is called in questions. -/
def kindName (tree : FileTree) (entry : Entry) : String :=
  match entry with
  | .directory _ _ => "directory"
  | .link _ => "symbolic link"
  | .queue _ => "fifo"
  | .device _ => "character special file"
  | _ => if (tree.contentsOf entry).isEmpty then "regular empty file" else "regular file"

/-- Removes what stands at a path with all that is in it, in at most `n` steps into directories. -/
def removeWith (isForced isRecursive emptyToo isAsking isVerbose : Bool) : (n : Nat) → String → Run Bool
  | 0, _ => return false
  | n + 1, path => do
    let cannot (fault : TreeFault) : Run Bool := do
      complainAsTool ("cannot remove " ++ quote path ++ ": " ++ fault.message)
      return false
    match ← lookAt path with
    | .error fault =>
      if isForced && (fault = .missing || fault = .notDirectory) then return true else cannot fault
    | .ok (place, entry) =>
      let tree := (← scene).tree
      if entry.isDirectory then
        if !isRecursive && !emptyToo then return ← cannot .isDirectory
        let base := baseName path
        if base = "." || base = ".." then
          complainAsTool ("refusing to remove '.' or '..' directory: skipping " ++ quote path)
          return false
        let names := tree.names place
        if !isRecursive && !names.isEmpty then return ← cannot .notEmpty
        if isAsking && !names.isEmpty then
          if !(← asks ("descend into directory " ++ quote path ++ "?")) then return true
        let removed ← names.mapM fun name =>
          removeWith isForced isRecursive emptyToo isAsking isVerbose n
            (inside path (Bytewise.ofText name))
        if !removed.all id then return false
        if isAsking then
          if !(← asks ("remove directory " ++ quote path ++ "?")) then return true
        match ← change fun tree now here => tree.removeDirectory now here (Bytewise.toText path) with
        | .ok _ =>
          if isVerbose then say ("removed directory " ++ quote path ++ "\n")
          return true
        | .error fault => if isAsking && fault = .notEmpty then return true else cannot fault
      else
        if isAsking then
          if !(← asks ("remove " ++ kindName tree entry ++ " " ++ quote path ++ "?")) then
            return true
        match ← change fun tree now here => tree.remove now here (Bytewise.toText path) with
        | .ok _ =>
          if isVerbose then say ("removed " ++ quote path ++ "\n")
          return true
        | .error fault => cannot fault

/-- How deeply directories are gone into. -/
def maxLevels : Nat := 1000

def rm : Tool := fun _ words => do
  let table := OptionTable.of "dfirRvI" [("dir", 'd'), ("force", 'f'), ("recursive", 'r'),
    ("verbose", 'v'), ("interactive=", 'i'), ("one-file-system", 'O'), ("preserve-root=", 'O'),
    ("no-preserve-root", 'O')]
  let given ← readOptions 1 table true words
  let isForced := given.lastOf ['f', 'i'] = some 'f'
  if given.operands.isEmpty && !isForced then usageFault 1 "missing operand"
  forEach given.operands fun path =>
    removeWith isForced (given.has 'r' || given.has 'R') (given.has 'd')
      (given.lastOf ['f', 'i'] = some 'i') (given.has 'v') maxLevels path

def unlink : Tool := fun _ words => do
  match words with
  | [] => usageFault 1 "missing operand"
  | [path] =>
    match ← change fun tree now here => tree.remove now here (Bytewise.toText path) with
    | .ok _ => return 0
    | .error fault => toolFault 1 ("cannot unlink " ++ quote path ++ ": " ++ fault.message)
  | _ :: extra :: _ => usageFault 1 ("extra operand " ++ quote extra)

/-! ## Links -/

/-- Makes a file stand at a second path. -/
def addLink (source target : String) (follows : Bool) : Run (Except TreeFault Unit) :=
  change fun tree now here => do
    let source ← if follows then tree.resolve here (Bytewise.toText source)
      else tree.locate here (Bytewise.toText source)
    let target ← tree.locate here (Bytewise.toText target)
    match tree.find? target.dropLast with
    | none => throw .missing
    | _ => tree.addName now source target

def link : Tool := fun _ words => do
  match words with
  | [] => usageFault 1 "missing operand"
  | [source] => usageFault 1 ("missing operand after " ++ quote source)
  | [source, target] =>
    match ← addLink source target false with
    | .ok _ => return 0
    | .error fault =>
      toolFault 1 ("cannot create link " ++ quote target ++ " to " ++ quote source ++ ": " ++
        fault.message)
  | _ :: _ :: extra :: _ => usageFault 1 ("extra operand " ++ quote extra)

/-- A path to one place as seen from another. -/
def relativePath (fromPlace toPlace : Place) : String :=
  let rec go : Place → Place → String
    | a :: as, b :: bs => if a = b then go as bs
      else "/".intercalate ((a :: as).map (fun _ => "..") ++ b :: bs)
    | as, bs =>
      let path := "/".intercalate (as.map (fun _ => "..") ++ bs)
      if path = "" then "." else path
  go fromPlace toPlace

/-- The place that a path would lead to, whatever of it is missing. -/
def farPlace (tree : FileTree) (here : Place) (path : String) : Place :=
  let names := FileTree.namesOf path
  let rec go (n : Nat) (at_ : Place) : List String → Place
    | [] => at_
    | name :: rest =>
      if name = "." then go n at_ rest
      else if name = ".." then go n at_.dropLast rest
      else
        let place := match tree.resolve at_ name with
          | .ok place => place
          | .error _ => at_ ++ [name]
        go n place rest
  go 0 (FileTree.startOf here path) names

/-- The operands of tools that put things somewhere: the sources, the target, and whether the target is
a directory into which they go. -/
def sourcesAndTarget (given : Given) : Run (List String × String × Bool) := do
  match given.find? 't' with
  | some directory =>
    if given.operands.isEmpty then usageFault 1 "missing file operand"
    if !(← leadsToDirectory directory) then
      let reason := match ← lookUp directory with
        | .ok _ => TreeFault.notDirectory.message
        | .error fault => fault.message
      toolFault 1 ("target directory " ++ quote directory ++ ": " ++ reason)
    return (given.operands, directory, true)
  | none =>
    match given.operands.reverse with
    | [] => usageFault 1 "missing file operand"
    | [only] => usageFault 1 ("missing destination file operand after " ++ quote only)
    | target :: sources =>
      let sources := sources.reverse
      if given.has 'T' then
        if let extra :: _ := given.operands.drop 2 then usageFault 1 ("extra operand " ++ quote extra)
        return (sources, target, false)
      let isDirectory ← leadsToDirectory target
      if !isDirectory && 1 < sources.length then
        let reason := match ← lookUp target with
          | .ok _ => TreeFault.notDirectory.message
          | .error fault => fault.message
        toolFault 1 ("target " ++ quote target ++ ": " ++ reason)
      return (sources, target, isDirectory)

/-- Makes a link at a path, which may be written as seen from there. -/
def addSymbolicLink (source target : String) (isRelative : Bool) : Run (Except TreeFault Unit) :=
  change fun tree now here =>
    let path := Bytewise.toText target
    let written := if isRelative then
        relativePath (farPlace tree here path).dropLast (farPlace tree here (Bytewise.toText source))
      else Bytewise.toText source
    tree.make now here path (.link written)

def ln : Tool := fun _ words => do
  let table := OptionTable.of "sfnivrLPTt:b" [("symbolic", 's'), ("force", 'f'),
    ("no-dereference", 'n'), ("interactive", 'i'), ("verbose", 'v'), ("relative", 'r'),
    ("logical", 'L'), ("physical", 'P'), ("no-target-directory", 'T'), ("target-directory:", 't')]
  let given ← readOptions 1 table true words
  if given.operands.isEmpty then usageFault 1 "missing file operand"
  let (sources, target, isDirectory) ←
    if given.operands.length = 1 && !given.has 't' then pure (given.operands, ".", true)
    else if given.has 'n' && given.operands.length = 2 then do
      let target := given.operands.getLastD ""
      match ← lookAt target with
      | .ok (_, .directory _ _) => pure (given.operands.take 1, target, true)
      | _ => pure (given.operands.take 1, target, false)
    else sourcesAndTarget given
  forEach sources fun source => do
    let path := if isDirectory then inside target (baseName source) else target
    let kind := if given.has 's' then "symbolic link " else "hard link "
    let failing (fault : TreeFault) : Run Bool := do
      let toSource := if given.has 's' || fault = .taken then "" else " => " ++ quote source
      complainAsTool ("failed to create " ++ kind ++ quote path ++ toSource ++ ": " ++ fault.message)
      return false
    if !given.has 's' then
      match ← lookUp source with
      | .error fault =>
        complainAsTool ("failed to access " ++ quote source ++ ": " ++ fault.message)
        return false
      | .ok (_, entry) =>
        if entry.isDirectory then
          complainAsTool (source ++ ": hard link not allowed for directory")
          return false
    if given.has 'f' then
      match ← lookAt path with
      | .ok (_, .directory _ _) =>
        if given.has 's' then
          complainAsTool (quote path ++ ": cannot overwrite directory")
          return false
      | .ok _ =>
        if source = path then
          complainAsTool (quote source ++ " and " ++ quote path ++ " are the same file")
          return false
        let _ ← change fun tree now here => tree.remove now here (Bytewise.toText path)
      | .error _ => pure ()
    let outcome ← if given.has 's' then addSymbolicLink source path (given.has 'r')
      else addLink source path (given.has 'L')
    match outcome with
    | .error fault => failing fault
    | .ok _ =>
      if given.has 'v' then
        say (quote path ++ (if given.has 's' then " -> " else " => ") ++ quote source ++ "\n")
      return true

/-- Where a path leads in the end, which has to exist as far as that is wanted: the whole of it, all but
its last component, or nothing. -/
def canonicalPath (path : String) (all allButLast : Bool) : Run (Except TreeFault String) :=
  look fun tree here => do
    let text := Bytewise.toText path
    if all then
      let (place, _) ← tree.lookUp here text
      return pathOf place
    else if allButLast then
      match tree.resolve here text with
      | .ok place =>
        match tree.find? place.dropLast with
        | some (.directory _ _) => return pathOf place
        | some _ => throw .notDirectory
        | none => throw .missing
      | .error fault => throw fault
    else if text = "" then throw .missing
    else return pathOf (farPlace tree here text)

def readlink : Tool := fun _ words => do
  let table := OptionTable.of "femnzqsv" [("canonicalize", 'f'), ("canonicalize-existing", 'e'),
    ("canonicalize-missing", 'm'), ("no-newline", 'n'), ("zero", 'z'), ("quiet", 'q'),
    ("silent", 's'), ("verbose", 'v')]
  let given ← readOptions 1 table true words
  if given.operands.isEmpty then usageFault 1 "missing operand"
  let ending := if given.has 'z' then "\x00"
    else if given.has 'n' && given.operands.length = 1 then "" else "\n"
  forEach given.operands fun path => do
    let found ← match given.lastOf ['f', 'e', 'm'] with
      | some way => canonicalPath path (way = 'e') (way = 'f')
      | none =>
        match ← lookAt path with
        | .ok (_, .link target) => pure (.ok (Bytewise.ofText target))
        | .ok _ => pure (.error TreeFault.invalid)
        | .error fault => pure (.error fault)
    match found with
    | .ok text =>
      say (text ++ ending)
      return true
    | .error fault =>
      if given.has 'v' then complainOf path fault
      return false

def realpath : Tool := fun _ words => do
  let table := OptionTable.of "emsLPqz" [("canonicalize-existing", 'e'), ("canonicalize-missing", 'm'),
    ("no-symlinks", 's'), ("strip", 's'), ("logical", 'L'), ("physical", 'P'), ("quiet", 'q'),
    ("zero", 'z'), ("relative-to:", 'T'), ("relative-base:", 'B')]
  let given ← readOptions 1 table true words
  if given.operands.isEmpty then usageFault 1 "missing operand"
  let resolved (path : String) : Run (Except TreeFault String) := do
    if given.has 's' then
      return .ok (plainPath (pathOf (← process).here) path)
    else canonicalPath path (given.has 'e') (!given.has 'm')
  forEach given.operands fun path => do
    match ← resolved path with
    | .ok text =>
      let names (path : String) : Place := (path.splitOn "/").filter (· ≠ "")
      let shown ← match given.find? 'T' with
        | none => pure text
        | some base =>
          match ← resolved base with
          | .ok base => pure (relativePath (names base) (names text))
          | .error fault => toolFault 1 (base ++ ": " ++ fault.message)
      say (shown ++ if given.has 'z' then "\x00" else "\n")
      return true
    | .error fault =>
      if !given.has 'q' then complainOf path fault
      return false

/-! ## Permissions -/

/-- Changes the permissions at a path, and below it if that is wanted. -/
def changeMode (mask : Nat) (isRecursive : Bool) (isLoud isTalkative : Bool) (mode : String) :
    (n : Nat) → String → Run Bool
  | 0, _ => return false
  | n + 1, path => do
    match ← lookUp path with
    | .error fault =>
      complainAsTool ("cannot access " ++ quote path ++ ": " ++ fault.message)
      return false
    | .ok (place, entry) =>
      let tree := (← scene).tree
      let before := tree.modeOf entry
      let after := (changedMode? mask entry.isDirectory before mode).getD before
      modifyScene fun s => { s with tree := s.tree.setMode place after }
      let octal (mode : Nat) : String :=
        Floating.digits 4 (Arithmetic.valueOf 10 (Nat.toDigits 8 mode)) ++ " (" ++
          modeLettersAll mode ++ ")"
      if before = after then
        if isTalkative then say ("mode of " ++ quote path ++ " retained as " ++ octal after ++ "\n")
      else if isLoud then
        say ("mode of " ++ quote path ++ " changed from " ++ octal before ++ " to " ++ octal after ++
          "\n")
      if isRecursive && entry.isDirectory then
        let changed ← (tree.names place).mapM fun name =>
          changeMode mask isRecursive isLoud isTalkative mode n (inside path (Bytewise.ofText name))
        return changed.all id
      return true
where
  /-- All permissions in letters. -/
  modeLettersAll (mode : Nat) : String :=
    let three (bits : Nat) : String :=
      (if bits &&& 4 ≠ 0 then "r" else "-") ++ (if bits &&& 2 ≠ 0 then "w" else "-") ++
        (if bits &&& 1 ≠ 0 then "x" else "-")
    three (mode >>> 6 &&& 7) ++ three (mode >>> 3 &&& 7) ++ three (mode &&& 7)

/-- Whether a word is a mode that takes something away, which looks like an option. -/
def looksLikeMode (word : String) : Bool :=
  match word.toList with
  | '-' :: c :: _ => "rwxXstugo".toList.contains c
  | _ => false

def chmod : Tool := fun _ words => do
  let table := OptionTable.of "Rcfv" [("recursive", 'R'), ("changes", 'c'), ("quiet", 'f'),
    ("silent", 'f'), ("verbose", 'v'), ("reference:", 'r')]
  let (modes, others) := words.partition looksLikeMode
  let given ← readOptions 1 table true others
  let mask := (← process).mask
  let apply (mode : String) (paths : List String) : Run Nat :=
    forEach paths (changeMode mask (given.has 'R') (given.has 'v' || given.has 'c') (given.has 'v') mode
      maxLevels)
  match modes, given.find? 'r', given.operands with
  | _, some path, paths =>
    match ← lookUp path with
    | .ok (_, entry) =>
      let mode := String.ofList (Nat.toDigits 8 ((← scene).tree.modeOf entry))
      apply mode paths
    | .error fault => toolFault 1 ("failed to get attributes of " ++ quote path ++ ": " ++ fault.message)
  | mode :: more, none, paths =>
    if paths.isEmpty then usageFault 1 ("missing operand after " ++ quote mode)
    apply (",".intercalate (mode :: more)) paths
  | [], none, [] => usageFault 1 "missing operand"
  | [], none, [mode] => usageFault 1 ("missing operand after " ++ quote mode)
  | [], none, mode :: paths =>
    if (changedMode? 0 false 0 mode).isNone then usageFault 1 ("invalid mode: " ++ quote mode)
    apply mode paths

/-! ## Sizes and names -/

/-- A number with a suffix for its unit. -/
def sizeOf? (text : String) : Option Nat :=
  let digits := text.toList.takeWhile Char.isDigit
  let unit := String.ofList (text.toList.drop digits.length)
  let number := (String.ofList digits).toNat?
  let power (n : Nat) : Option Nat := some (Nat.pow 1024 n)
  let factor := match unit with
    | "" | "c" => some 1
    | "b" => some 512
    | "K" | "k" | "KiB" => power 1
    | "M" | "m" | "MiB" => power 2
    | "G" | "GiB" => power 3
    | "kB" | "KB" => some 1000
    | "MB" => some 1000000
    | "GB" => some 1000000000
    | _ => none
  match number, factor with
  | some n, some f => some (n * f)
  | none, some f => if digits.isEmpty && unit ≠ "" && f ≠ 1 then some f else none
  | _, none => none

def truncate : Tool := fun _ words => do
  let table := OptionTable.of "cs:r:o" [("no-create", 'c'), ("size:", 's'), ("reference:", 'r'),
    ("io-blocks", 'o')]
  let given ← readOptions 1 table true words
  let base ← match given.find? 'r' with
    | none => pure none
    | some path =>
      match ← readPath path with
      | .ok bytes => pure (some bytes.length)
      | .error fault => toolFault 1 ("cannot stat " ++ quote path ++ ": " ++ fault.message)
  let size := given.find? 's'
  if size.isNone && base.isNone then
    usageFault 1 "you must specify either '--size' or '--reference'"
  if given.operands.isEmpty then usageFault 1 "missing file operand"
  let text := size.getD (toString (base.getD 0))
  let sign := text.toList.head?.filter fun c => "+-<>/%".toList.contains c
  let some amount := sizeOf? (if sign.isSome then (text.drop 1).toString else text)
    | toolFault 1 ("Invalid number: " ++ quote text)
  let mode ← newMode 0o666
  forEach given.operands fun path => do
    if given.has 'c' && !(← lookUp path).toBool then return true
    changing "open" path fun tree now here => do
      let (entry, tree) ← tree.openPath now here (Bytewise.toText path) ⟨some mode, false⟩
      match entry with
      | .file id =>
        let body := tree.body id
        let old := base.getD body.bytes.length
        let length := match sign with
          | some '+' => old + amount
          | some '-' => old - amount
          | some '<' => min old amount
          | some '>' => max old amount
          | some '/' => if amount = 0 then old else old / amount * amount
          | some '%' => if amount = 0 then old else (old + amount - 1) / amount * amount
          | _ => amount
        let bytes := body.bytes.take length ++ List.replicate (length - body.bytes.length) 0
        return tree.setBody id { body with bytes := bytes, mtime := now }
      | _ => return tree

def mktemp : Tool := fun _ words => do
  let table := OptionTable.of "duqtp:" [("directory", 'd'), ("dry-run", 'u'), ("quiet", 'q'),
    ("tmpdir=", 'p'), ("suffix:", 's')]
  let given ← readOptions 1 table true words
  let pattern := given.operands.headD "tmp.XXXXXXXXXX"
  let run := (pattern.toList.reverse.takeWhile (· = 'X')).length
  if run < 3 then toolFault 1 ("too few X's in template " ++ quote pattern)
  let serial := (← scene).nextPid + (← scene).opened.cells.size
  let letters := "abcdefghijklmnopqrstuvwxyzABCDEFGHIJKLMNOPQRSTUVWXYZ0123456789".toList
  let unique := (List.range run).map fun i =>
    (letters[(serial * 7919 + i * 104729 + serial / Nat.pow 62 (i % 4)) % letters.length]?).getD 'a'
  let name := (pattern.take (pattern.length - run)).toString ++ String.ofList unique ++
    (given.find? 's').getD ""
  let directory := match given.find? 'p' with
    | some "" => some "/tmp"
    | some directory => some directory
    | none => if given.operands.isEmpty || given.has 't' then some "/tmp" else none
  let path := directory.elim name fun directory => inside directory name
  if !given.has 'u' then
    let made ← if given.has 'd' then addDirectory path 0o700
      else change fun tree now here =>
        (·.2) <$> tree.openPath now here (Bytewise.toText path) ⟨some 0o600, false⟩
    if let .error fault := made then
      let kind := if given.has 'd' then "directory" else "file"
      toolFault 1 ("failed to create " ++ kind ++ " via template " ++ quote pattern ++ ": " ++
        fault.message)
  modifyScene fun s => (s.addOpened (.device .empty)).2
  print (path ++ "\n")

def mkfifo : Tool := fun _ words => do
  let given ← readOptions 1 (OptionTable.of "m:" [("mode:", 'm')]) true words
  if given.operands.isEmpty then usageFault 1 "missing operand"
  let mode ← newMode 0o666
  forEach given.operands fun path => do
    match ← change fun tree now here => do
      let id := tree.freshId
      (tree.setBody id ⟨[], now, mode⟩).make now here (Bytewise.toText path) (.queue id) with
    | .ok _ => return true
    | .error fault =>
      complainAsTool ("cannot create fifo " ++ quote path ++ ": " ++ fault.message)
      return false

/-! ## Names -/

def basename : Tool := fun _ words => do
  let table := OptionTable.of "as:z" [("multiple", 'a'), ("suffix:", 's'), ("zero", 'z')]
  let given ← readOptions 1 table false words
  let ending := if given.has 'z' then "\x00" else "\n"
  let strip (suffix path : String) : String :=
    let name := baseName path
    if suffix ≠ "" && name.endsWith suffix && name ≠ suffix then
      (name.dropEnd suffix.length).toString
    else name
  match given.has 'a' || given.has 's', given.operands with
  | _, [] => usageFault 1 "missing operand"
  | true, paths =>
    print (String.join (paths.map fun path => strip ((given.find? 's').getD "") path ++ ending))
  | false, [path] => print (strip "" path ++ ending)
  | false, [path, suffix] => print (strip suffix path ++ ending)
  | false, _ :: _ :: extra :: _ => usageFault 1 ("extra operand " ++ quote extra)

def dirname : Tool := fun _ words => do
  let given ← readOptions 1 (OptionTable.of "z" [("zero", 'z')]) true words
  if given.operands.isEmpty then usageFault 1 "missing operand"
  let ending := if given.has 'z' then "\x00" else "\n"
  print (String.join (given.operands.map fun path => dirName path ++ ending))

end Rebuild.Shell.Tool
