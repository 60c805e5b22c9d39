import Rebuild.Shell.Tool.Files

/-!
# Tools that copy and move

Tools that make what stands at one path stand at another one as well, or instead.
-/

namespace Rebuild.Shell.Tool

open Run

/-! ## Copying -/

/-- How things are copied. -/
structure Copying where
  isRecursive : Bool
  keepsLinks : Bool
  keepsTimes : Bool
  keepsModes : Bool
  isForced : Bool
  keepsNewer : Bool
  keepsOthers : Bool
  makesHardLinks : Bool
  makesLinks : Bool
  isVerbose : Bool
  removesTarget : Bool

/-- Gives what was copied the time and the permissions of where it came from. -/
def preserve (c : Copying) (entry : Entry) (target : String) : Run Unit := do
  let _ ← change fun tree _ here => do
    let place ← tree.resolve here (Bytewise.toText target)
    let tree := if c.keepsModes then tree.setMode place (tree.modeOf entry) else tree
    return if c.keepsTimes then tree.setMtime place (tree.mtimeOf entry) else tree

/-- Whether two entries are the same file. -/
def isSameEntry (a b : Place × Entry) : Bool :=
  match a.2, b.2 with
  | .file x, .file y => x = y
  | _, _ => a.1 = b.1

/-- Copies a file that is no directory. -/
def copyFile (c : Copying) (source target : String) (entry : Entry) : Run Bool := do
  let failing (action : String) (fault : TreeFault) : Run Bool := do
    complainAsTool ("cannot " ++ action ++ " " ++ quote target ++ ": " ++ fault.message)
    return false
  match entry with
  | .link goal =>
    if c.isForced || c.removesTarget then
      let _ ← change fun tree now here => tree.remove now here (Bytewise.toText target)
    match ← change fun tree now here => tree.make now here (Bytewise.toText target) (.link goal) with
    | .ok _ => return true
    | .error fault => failing "create symbolic link" fault
  | _ =>
    if c.makesHardLinks || c.makesLinks then
      if c.isForced then
        let _ ← change fun tree now here => tree.remove now here (Bytewise.toText target)
      let made ← if c.makesLinks then addSymbolicLink source target false else addLink source target true
      match made with
      | .ok _ => return true
      | .error fault =>
        let kind := if c.makesLinks then "create symbolic link" else "create hard link"
        failing kind fault
    else
      match ← readPath source with
      | .error fault =>
        complainAsTool ("cannot open " ++ quote source ++ " for reading: " ++ fault.message)
        return false
      | .ok bytes =>
        if c.removesTarget then
          let _ ← change fun tree now here => tree.remove now here (Bytewise.toText target)
        let mode ← newMode ((← scene).tree.modeOf entry &&& 0o777)
        match ← openPath target ⟨some mode, true⟩ false with
        | .error fault =>
          let fault := if target.endsWith "/" && fault = .missing then .notDirectory else fault
          failing "create regular file" fault
        | .ok id =>
          setDescriptor spareDescriptor (some id)
          let written ← writeBytes spareDescriptor bytes
          setDescriptor spareDescriptor none
          if let .error fault := written then
            complainAsTool ("error writing " ++ quote target ++ ": " ++ fault.message)
            return false
          preserve c entry target
          return true

/-- Copies what stands at a path to another one, in at most `n` steps into directories. -/
def copyTo (c : Copying) : (n : Nat) → (isTop : Bool) → (source target : String) → Run Bool
  | 0, _, _, _ => return false
  | n + 1, isTop, source, target => do
    match ← if c.keepsLinks then lookAt source else lookUp source with
    | .error fault =>
      complainAsTool ("cannot stat " ++ quote source ++ ": " ++ fault.message)
      return false
    | .ok (place, entry) =>
      let existing := (← lookUp target).toOption
      let show_ : Run Unit := do
        if c.isVerbose then say (quote source ++ " -> " ++ quote target ++ "\n")
      if entry.isDirectory then
        if !c.isRecursive then
          complainAsTool ("-r not specified; omitting directory " ++ quote source)
          return false
        let goal := (← look fun tree here => tree.resolve here (Bytewise.toText target)).toOption
        if isTop && goal.any fun goal => place.isPrefixOf goal then
          complainAsTool ("cannot copy a directory, " ++ quote source ++ ", into itself, " ++ quote target)
          return false
        match existing with
        | some (_, .directory _ _) => pure ()
        | some _ =>
          complainAsTool ("cannot overwrite non-directory " ++ quote target ++ " with directory " ++
            quote source)
          return false
        | none =>
          let mode ← newMode ((← scene).tree.modeOf entry)
          match ← addDirectory (trimSeparators target) mode with
          | .ok _ => show_
          | .error fault =>
            complainAsTool ("cannot create directory " ++ quote target ++ ": " ++ fault.message)
            return false
        let copied ← ((← scene).tree.names place).mapM fun name =>
          let name := Bytewise.ofText name
          copyTo c n false (inside source name) (inside target name)
        preserve c entry target
        return copied.all id
      else
        match existing with
        | some (_, .directory _ _) =>
          complainAsTool ("cannot overwrite directory " ++ quote target ++ " with non-directory")
          return false
        | some found =>
          let tree := (← scene).tree
          if isSameEntry found (place, entry) && !entry.isLink then
            if c.makesHardLinks then return true
            complainAsTool (quote source ++ " and " ++ quote target ++ " are the same file")
            return false
          if c.keepsOthers then return true
          if c.keepsNewer && tree.mtimeOf entry ≤ tree.mtimeOf found.2 then return true
        | none => pure ()
        show_
        copyFile c source target entry

def cp : Tool := fun _ words => do
  let table := OptionTable.of "abdfiHlLnPprRst:TuvxZ"
    [("archive", 'a'), ("force", 'f'), ("interactive", 'i'), ("link", 'l'), ("dereference", 'L'),
      ("no-clobber", 'n'), ("no-dereference", 'P'), ("preserve=", 'p'), ("recursive", 'R'),
      ("symbolic-link", 's'), ("target-directory:", 't'), ("no-target-directory", 'T'),
      ("update=", 'u'), ("verbose", 'v'), ("one-file-system", 'x'), ("parents", 'D'),
      ("no-preserve:", 'N'), ("remove-destination", 'X'), ("reflink=", 'F'), ("sparse:", 'F'),
      ("attributes-only", 'A'), ("strip-trailing-slashes", 'S'), ("context=", 'F')]
  let given ← readOptions 1 table true words
  let isRecursive := given.has 'r' || given.has 'R' || given.has 'a'
  let linkWay := given.lastOf ['L', 'P', 'd', 'a', 'H']
  let preserved := (given.find? 'p').getD ""
  let names := if preserved = "" then ["mode", "timestamps"] else preserved.splitOn ","
  let keeps (name : String) : Bool :=
    given.has 'a' || (given.has 'p' && (names.contains name || names.contains "all"))
  let c : Copying := {
    isRecursive := isRecursive
    keepsLinks := match linkWay with
      | some 'L' | some 'H' => false
      | some _ => true
      | none => isRecursive
    keepsTimes := keeps "timestamps"
    keepsModes := keeps "mode"
    isForced := given.has 'f'
    keepsNewer := given.has 'u' && (given.find? 'u').any fun way => way = "" || way = "older"
    keepsOthers := given.has 'n' || (given.find? 'u').any fun way => way = "none"
    makesHardLinks := given.has 'l'
    makesLinks := given.has 's'
    isVerbose := given.has 'v'
    removesTarget := given.has 'X' }
  if given.has 'n' then
    complainAsTool ("warning: behavior of -n is non-portable and may change in future; " ++
      "use --update=none instead")
  let (sources, target, isDirectory) ← sourcesAndTarget given
  forEach sources fun source => do
    let source := if given.has 'S' then trimSeparators source else source
    if given.has 'D' then
      let path := inside target (String.ofList (source.toList.dropWhile (· = '/')))
      let around := (leadingPaths path).dropLast
      let mode ← newMode 0o777
      let _ ← addDirectories around mode false
      copyTo c maxLevels true source path
    else
      let path := if isDirectory then inside target (baseName source) else target
      copyTo c maxLevels true source path

/-! ## Moving -/

/-- Moves what stands at a path to another one. -/
def moveTo (given : Given) (source target : String) : Run Bool := do
  match ← lookAt source with
  | .error fault =>
    complainAsTool ("cannot stat " ++ quote source ++ ": " ++ fault.message)
    return false
  | .ok (place, entry) =>
    let tree := (← scene).tree
    match ← lookAt target with
    | .ok found =>
      if isSameEntry found (place, entry) then
        complainAsTool (quote source ++ " and " ++ quote target ++ " are the same file")
        return false
      if given.lastOf ['n', 'f', 'i'] = some 'n' then
        complainAsTool ("not replacing " ++ quote target)
        return false
      if given.lastOf ['n', 'f', 'i'] = some 'i' then
        if !(← asks ("overwrite " ++ quote target ++ "?")) then return false
      if given.has 'u' && tree.mtimeOf entry ≤ tree.mtimeOf found.2 then return true
      if found.2.isDirectory && !entry.isDirectory then
        complainAsTool ("cannot overwrite directory " ++ quote target ++ " with non-directory")
        return false
      if entry.isDirectory && !found.2.isDirectory then
        complainAsTool ("cannot overwrite non-directory " ++ quote target ++ " with directory " ++
          quote source)
        return false
    | .error _ => pure ()
    match ← change fun tree now here => do
      let goal ← tree.locate here (Bytewise.toText (trimSeparators target))
      match tree.find? goal.dropLast with
      | none => throw .missing
      | some (.directory _ _) =>
        if target.endsWith "/" && !entry.isDirectory && (tree.find? goal).isNone then
          throw .notDirectory
        tree.rename now place goal
      | some _ => throw .notDirectory with
    | .ok _ =>
      if given.has 'v' then say ("renamed " ++ quote source ++ " -> " ++ quote target ++ "\n")
      return true
    | .error .invalid =>
      complainAsTool ("cannot move " ++ quote source ++ " to a subdirectory of itself, " ++ quote target)
      return false
    | .error .notEmpty =>
      complainAsTool ("cannot overwrite " ++ quote target ++ ": " ++ TreeFault.notEmpty.message)
      return false
    | .error fault =>
      complainAsTool ("cannot move " ++ quote source ++ " to " ++ quote target ++ ": " ++ fault.message)
      return false

def mv : Tool := fun _ words => do
  let table := OptionTable.of "bfint:TuvZ"
    [("force", 'f'), ("interactive", 'i'), ("no-clobber", 'n'), ("target-directory:", 't'),
      ("no-target-directory", 'T'), ("update=", 'u'), ("verbose", 'v'),
      ("strip-trailing-slashes", 'S')]
  let given ← readOptions 1 table true words
  let (sources, target, isDirectory) ← sourcesAndTarget given
  forEach sources fun source =>
    moveTo given source (if isDirectory then inside target (baseName source) else target)

/-! ## Installing -/

def install : Tool := fun _ words => do
  let table := OptionTable.of "bcCdDg:m:o:pst:TvZ"
    [("compare", 'C'), ("directory", 'd'), ("mode:", 'm'), ("preserve-timestamps", 'p'), ("strip", 's'),
      ("target-directory:", 't'), ("no-target-directory", 'T'), ("verbose", 'v'), ("owner:", 'o'),
      ("group:", 'g')]
  let given ← readOptions 1 table true words
  let mode ← match given.find? 'm' with
    | none => pure 0o755
    | some text =>
      match changedMode? 0 false 0 text with
      | some mode => pure mode
      | none => toolFault 1 ("invalid mode " ++ quote text)
  let announceDirectories (paths : List String) (mode : Nat) : Run Bool := do
    paths.foldlM (fun isGood path => do
      if !isGood then return false
      if ← leadsToDirectory path then return true
      match ← addDirectory path mode with
      | .ok _ =>
        if given.has 'v' then say ((← process).name ++ ": creating directory " ++ quote path ++ "\n")
        return true
      | .error fault =>
        complainAsTool ("cannot create directory " ++ quote path ++ ": " ++ fault.message)
        return false) true
  if given.has 'd' then
    if given.operands.isEmpty then usageFault 1 "missing file operand"
    forEach given.operands fun path => do
      let path := trimSeparators path
      if !(← announceDirectories (leadingPaths path) 0o755) then return false
      let _ ← change fun tree _ here => do
        return tree.setMode (← tree.resolve here (Bytewise.toText path)) mode
      return true
  else
    if given.has 'D' && given.has 't' then
      let _ ← announceDirectories (leadingPaths (trimSeparators ((given.find? 't').getD ""))) 0o755
    let (sources, target, isDirectory) ← sourcesAndTarget given
    let c : Copying :=
      ⟨false, false, given.has 'p', false, false, false, false, false, false, given.has 'v', true⟩
    forEach sources fun source => do
      let path := if isDirectory then inside target (baseName source) else target
      match ← lookUp source with
      | .error fault =>
        complainAsTool ("cannot stat " ++ quote source ++ ": " ++ fault.message)
        return false
      | .ok (place, entry) =>
        if entry.isDirectory then
          complainAsTool ("omitting directory " ++ quote source)
          return false
        if given.has 'D' then
          if !(← announceDirectories (leadingPaths path).dropLast 0o755) then return false
        if let .ok found ← lookUp path then
          if isSameEntry found (place, entry) then
            complainAsTool (quote source ++ " and " ++ quote path ++ " are the same file")
            return false
          if found.2.isDirectory then
            complainAsTool ("cannot overwrite directory " ++ quote path ++ " with non-directory")
            return false
        if !(← lookUp (dirName path)).toBool then
          complainAsTool ("cannot create regular file " ++ quote path ++ ": " ++
            TreeFault.missing.message)
          return false
        if given.has 'v' then say (quote source ++ " -> " ++ quote path ++ "\n")
        if !(← copyFile c source path entry) then return false
        let _ ← change fun tree _ here => do
          return tree.setMode (← tree.resolve here (Bytewise.toText path)) mode
        return true

/-! ## Blocks -/

/-- A number of `dd`, which may be a product. -/
def blockNumber (text : String) : Run Nat := do
  match (text.splitOn "x").mapM sizeOf? with
  | some factors => return factors.foldl (· * ·) 1
  | none => toolFault 1 ("invalid number: " ++ quote text)

/-- Changes the letters of bytes as conversions say. -/
def convertByte (conversions : List String) (b : UInt8) : UInt8 :=
  if conversions.contains "ucase" && 97 ≤ b && b ≤ 122 then b - 32
  else if conversions.contains "lcase" && 65 ≤ b && b ≤ 90 then b + 32
  else b

/-- Exchanges each byte with the one after it. -/
def swapBytes : Bytes → Bytes
  | a :: b :: rest => b :: a :: swapBytes rest
  | rest => rest

/-- How many whole and partial blocks a number of bytes makes. -/
def blockCounts (size length : Nat) : String :=
  toString (length / size) ++ "+" ++ (if length % size = 0 then "0" else "1")

def dd : Tool := fun _ words => do
  let settings ← words.mapM fun word => do
    let name := String.ofList (word.toList.takeWhile (· ≠ '='))
    let known := ["if", "of", "bs", "ibs", "obs", "cbs", "count", "skip", "seek", "iseek", "oseek",
      "conv", "status", "iflag", "oflag"]
    if name.length = word.length || !known.contains name then
      usageFault 1 ("unrecognized operand " ++ quote word)
    return (name, (word.drop (name.length + 1)).toString)
  let find (name : String) : Option String := settings.reverse.lookup name
  let number (name : String) (usual : Nat) : Run Nat := do
    match find name with
    | some text => blockNumber text
    | none => return usual
  let conversions := (((find "conv").getD "").splitOn ",")
  let block ← number "bs" 0
  let inSize ← if block = 0 then number "ibs" 512 else pure block
  let outSize ← if block = 0 then number "obs" 512 else pure block
  let skip ← number "skip" 0
  let skip ← number "iseek" skip
  let seek ← number "seek" 0
  let seek ← number "oseek" seek
  let countsBytes := ((find "iflag").getD "").splitOn "," |>.contains "count_bytes"
  let skipsBytes := ((find "iflag").getD "").splitOn "," |>.contains "skip_bytes"
  let count? ← match find "count" with
    | none => pure none
    | some text => do
      let n ← blockNumber text
      pure (some (if countsBytes then n else n * inSize))
  if let some path := find "if" then
    match ← openPath path ⟨none, false⟩ false with
    | .ok id => setDescriptor 0 (some id)
    | .error fault => toolFault 1 ("failed to open " ++ quote path ++ ": " ++ fault.message)
  if let some path := find "of" then
    let mode ← newMode 0o666
    let truncates := !conversions.contains "notrunc" && seek = 0
    match ← openPath path ⟨some mode, truncates⟩ false with
    | .ok id => setDescriptor 1 (some id)
    | .error fault => toolFault 1 ("failed to open " ++ quote path ++ ": " ++ fault.message)
  let limit := (if skipsBytes then skip else skip * inSize) + count?.getD 100000000
  let read ← match ← opened? 0 with
    | some (_, .device .zeros) => readSome 0 (min limit 100000000)
    | _ => readAll 0
  let all ← match read with
    | .ok bytes => pure bytes
    | .error fault => toolFault 1 ("error reading " ++ quote ((find "if").getD "standard input") ++ ": " ++
        fault.message)
  let taken := (all.drop (if skipsBytes then skip else skip * inSize)).take (count?.getD all.length)
  let swapped := if conversions.contains "swab" then swapBytes taken else taken
  let bytes := swapped.map (convertByte conversions)
  let bytes := if conversions.contains "sync" then
      bytes ++ List.replicate ((inSize - bytes.length % inSize) % inSize) 0
    else bytes
  if seek ≠ 0 then
    match ← opened? 1 with
    | some (id, .file file _ appends) =>
      let start := seek * outSize
      modifyScene fun s =>
        let body := s.tree.body file
        let body := if conversions.contains "notrunc" then body
          else { body with bytes := body.bytes.take start }
        { s with
          tree := s.tree.setBody file body
          opened := s.opened.set id (.file file start appends) }
    | _ => pure ()
  let status ← match ← writeBytes 1 bytes with
    | .ok _ => pure 0
    | .error fault =>
      complainAsTool ("error writing " ++ quote ((find "of").getD "standard output") ++ ": " ++
        fault.message)
      pure 1
  if find "status" ≠ some "none" then
    complain (blockCounts inSize taken.length ++ " records in")
    complain (blockCounts outSize bytes.length ++ " records out")
    if find "status" ≠ some "noxfer" then
      let plural := if bytes.length = 1 then " byte" else " bytes"
      complain (toString bytes.length ++ plural ++ " copied, 0.0001 s, " ++
        toString (bytes.length / 100) ++ " MB/s")
  return status

end Rebuild.Shell.Tool
