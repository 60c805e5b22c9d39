import Rebuild.Shell.Awk.Elements
import Rebuild.Shell.Awk.Reading
import Rebuild.Shell.Date
import Rebuild.Shell.Tool

/-!
# What a record program works on

A machine holds the variables and arrays of a program, the record under way with its fields, and what was
opened. Fields are made from the record when they are needed, and the record from its fields. Printed text
is gathered before it is written.
-/

namespace Rebuild.Shell.Awk

/-- Something that text is printed to: its name, whether it is a command line, its descriptor, the text
that was not written yet, the last of it first, and the process of a command line. -/
structure Outlet where
  name : String
  isCommand : Bool
  descriptor : Nat
  pending : List String
  size : Nat
  child : Option Pid

/-- Something that records are read from: its name, what was read and not taken yet, the descriptor from
which more can come, and the process of a command line. -/
structure Inlet where
  name : String
  rest : List Char
  descriptor : Option Nat
  child : Option Pid

/-- What a local name stands for. -/
inductive Local where
  | value (v : Value)
  | array (id : Nat)

/-- The variables and arrays of a program, the record, and what was opened. -/
structure Machine where
  globals : Std.HashMap String Value
  arrays : Array Elements
  /-- The numbers of arrays that no name stands for any more. -/
  free : List Nat
  locals : List (String × Local)
  record : String
  fields : Array Value
  /-- Whether the fields are those of the record. -/
  isSplit : Bool
  /-- Whether the record is to be made from its fields. -/
  isStale : Bool
  /-- What was opened, that which was used last in front. -/
  outlets : List Outlet
  inlets : List Inlet
  main : Option Inlet
  /-- The number of the next operand. -/
  next : Nat
  wasOpened : Bool
  nextDescriptor : Nat
  searches : Std.HashMap String Regex
  /-- For each rule whether its range is under way. -/
  ranges : Array Bool
  seed : Value
  random : Nat
  status : Nat

/-- What leads out of a program or of what is done for a record. -/
inductive Jump where
  | exit
  | nextRecord
  | nextFile
deriving DecidableEq, Repr

/-- What a program does. -/
abbrev Act := ExceptT Jump (StateT Machine Run)

namespace Act

/-! ## Names -/

/-- The value of a variable that is known everywhere. -/
def global (name : String) : Act Value := do
  return ((← get).globals.get? name).getD .unset

def setGlobal (name : String) (v : Value) : Act Unit :=
  modify fun m => { m with globals := m.globals.insert name v }

/-- The format for numbers in texts. -/
def conversion : Act String := do
  match ← global "CONVFMT" with
  | .text s | .input s => return s
  | _ => return "%.6g"

/-- The value of a variable as text. -/
def globalText (name : String) : Act String := do
  return (← global name).toText (← conversion)

/-- A value as text. -/
def textOf (v : Value) : Act String := do
  match v with
  | .text s | .input s => return s
  | _ => return v.toText (← conversion)

/-! ## Outlets -/

def writeOut (descriptor : Nat) (text : String) : Act Unit := do
  let found ← (Run.writeBytes descriptor (Bytewise.toBytes text.toList) : Run (Except TreeFault Unit))
  match found with
  | .ok _ => return ()
  | .error fault =>
    (do
      Run.complainAsTool ("write failure (" ++ fault.message ++ ")")
      Run.complainAsTool "close failure"
      Run.exit 2 : Run Unit)

/-- Writes what is pending for an outlet. -/
def flushed (o : Outlet) : Act Outlet := do
  if !o.pending.isEmpty then writeOut o.descriptor (String.join o.pending.reverse)
  return { o with pending := [], size := 0 }

/-- Writes all that is pending. -/
def flushAll : Act Unit := do
  let outlets ← (← get).outlets.mapM flushed
  modify fun m => { m with outlets := outlets }

/-- The name of the output among the outlets. -/
def outputName : String := "/dev/stdout"

/-- Writes what is pending for the output, or for what has another name. The outcome tells whether there is
something of that name. -/
def flush (name : String) : Act Bool := do
  let outlets := (← get).outlets
  let outlets ← outlets.mapM fun o => if o.name = name then flushed o else return o
  modify fun m => { m with outlets := outlets }
  return outlets.any (·.name = name)

/-- How much is gathered before it is written. -/
def gathered : Nat := 4096

/-- Adds text to what is pending for an outlet. -/
def put (o : Outlet) (text : String) : Act Outlet := do
  let o := { o with pending := text :: o.pending, size := o.size + text.utf8ByteSize }
  if o.name = "/dev/stderr" || gathered ≤ o.size then flushed o else return o

/-- Prints text to the output. -/
def say (text : String) : Act Unit := do
  let outlets := (← get).outlets
  modify fun m => { m with outlets := [] }
  let outlets ← outlets.mapM fun o =>
    if o.name = outputName && !o.isCommand then put o text else return o
  modify fun m => { m with outlets := outlets }

/-- The process without what a program opened. -/
def withoutOpened (p : Process) : Process :=
  { p with descriptors := p.descriptors.filter (·.1 < 64) }

/-- Closes an outlet, and tells with what status its command line ended. -/
def closeOutlet (o : Outlet) : Act Nat := do
  let o ← flushed o
  if 2 < o.descriptor then (Run.setDescriptor o.descriptor none : Run Unit)
  match o.child with
  | none => return 0
  | some child =>
    let ending ← (Run.waitFor child : Run Ending)
    return match ending with
      | .exited status => status
      | .killed signal => 256 + signal

/-- Closes all outlets. -/
def closeAll : Act Unit := do
  let outlets := (← get).outlets
  modify fun m => { m with outlets := [] }
  outlets.forM fun o => do
    let _ ← closeOutlet o

/-- Complains about something that a program cannot do, and ends. -/
def fault {α : Type} (text : String) : Act α := do
  let file ← globalText "FILENAME"
  let inFile ← globalText "FNR"
  let number ← globalText "NR"
  (Run.complainAsTool ("run time error: " ++ text ++ "\n\tFILENAME=\"" ++ file ++ "\" FNR=" ++ inFile ++
    " NR=" ++ number) : Run Unit)
  closeAll
  (Run.exit 2 : Run α)

/-- Complains about something that cannot be opened or read, and ends. -/
def fatal {α : Type} (text : String) : Act α := do
  (Run.complainAsTool text : Run Unit)
  closeAll
  (Run.exit 2 : Run α)

/-! ## Searches -/

/-- The regular expression that a text writes. -/
def search (text : String) : Act Regex := do
  match (← get).searches.get? text with
  | some r => return r
  | none =>
    match readSearch text with
    | .ok r =>
      modify fun m => { m with searches := m.searches.insert text r }
      return r
    | .error text => fault text

/-- The separator that a text writes. -/
def separator (text : String) : Act Separator := do
  match text.toList with
  | [] => return .nothing
  | [c] => return if c = ' ' then .blanks else .search (Regex.Reader.literal c)
  | _ => return .search (← search text)

/-! ## Fields -/

/-- Makes the fields from the record, if that was not done yet. -/
def splitRecord : Act Unit := do
  if !(← get).isSplit then
    let sep ← separator (← globalText "FS")
    modify fun m => { m with
      fields := ((sep.split m.record).map Value.input).toArray
      isSplit := true }

/-- Makes the record from its fields, if that is needed. -/
def joinFields : Act Unit := do
  if (← get).isStale then
    let between ← globalText "OFS"
    let texts ← (← get).fields.toList.mapM textOf
    modify fun m => { m with record := between.intercalate texts, isStale := false }

def setRecord (text : String) : Act Unit :=
  modify fun m => { m with record := text, fields := #[], isSplit := false, isStale := false }

/-- The record. -/
def record : Act String := do
  joinFields
  return (← get).record

/-- The number of a field, which cannot be negative. -/
def fieldNumber (v : Value) : Act Nat := do
  let n := clamped v.toNumber
  if n < 0 then fault ("negative field index $" ++ toString n)
  else return n.toNat

/-- A field, where 0 is the record. -/
def field (n : Nat) : Act Value := do
  if n = 0 then return .input (← record)
  splitRecord
  return ((← get).fields[n - 1]?).getD .unset

/-- Makes the record have a number of fields. -/
def setFieldCount (count : Nat) : Act Unit := do
  splitRecord
  modify fun m => { m with
    fields := m.fields.extract 0 count ++ Array.replicate (count - m.fields.size) (.text "")
    isStale := true }

def setField (n : Nat) (v : Value) : Act Unit := do
  if n = 0 then setRecord (← textOf v)
  else
    splitRecord
    if (← get).fields.size < n then setFieldCount n
    modify fun m => { m with fields := m.fields.setIfInBounds (n - 1) v, isStale := true }

/-! ## Variables -/

/-- The value of a variable. -/
def valueOf (name : String) : Act Value := do
  match (← get).locals.lookup name with
  | some (.value v) => return v
  | some (.array _) => return .unset
  | none =>
    if name = "NF" then
      splitRecord
      return .ofNat (← get).fields.size
    else global name

/-- Gives a variable a value. Some variables are about the record. -/
def setVariable (name : String) (v : Value) : Act Unit := do
  match (← get).locals.lookup name with
  | some _ =>
    modify fun m => { m with locals := m.locals.map fun (other, old) =>
      if other = name then (other, .value v) else (other, old) }
  | none =>
    match name with
    | "NF" => setFieldCount (clamped v.toNumber).toNat
    | "FS" => splitRecord
    | "OFS" => joinFields
    | _ => pure ()
    setGlobal name v

/-! ## Arrays -/

/-- The number of a new array. -/
def newArray : Act Nat := do
  let m ← get
  match m.free with
  | id :: free =>
    set { m with free := free, arrays := m.arrays.setIfInBounds id .empty }
    return id
  | [] =>
    let id := m.arrays.size
    set { m with arrays := m.arrays.push .empty }
    return id

/-- Reads from an array. -/
def withArray {α : Type} (id : Nat) (f : Elements → α) : Act α := do
  return f ((← get).arrays.getD id .empty)

/-- Changes an array. -/
def changeArray (id : Nat) (f : Elements → Elements) : Act Unit :=
  modify fun m => { m with arrays := m.arrays.modify id f }

/-- The value under an index, which the array has from then on. -/
def element (id : Nat) (index : Elements.Index) : Act Value := do
  changeArray id (·.touch true index)
  withArray id (·.get index)

/-! ## Records -/

/-- How many times something is read at most. -/
def maxReads : Nat := Nat.pow 10 12

/-- Reads more from where records come from, and tells whether there was more. -/
def readMore (i : Inlet) : Act (Bool × Inlet) := do
  match i.descriptor with
  | none => return (false, i)
  | some descriptor =>
    let found ← (Run.readSome descriptor Run.chunkSize : Run (Except TreeFault Bytes))
    match found with
    | .error fault => fatal ("read error (" ++ fault.message ++ ")")
    | .ok bytes =>
      if bytes.isEmpty then return (false, { i with descriptor := none })
      else return (true, { i with rest := i.rest ++ Bytewise.ofBytes bytes })

/-- Reads all that is left, in at most `n` steps. -/
def readRest : (n : Nat) → Inlet → Act Inlet
  | 0, i => return i
  | n + 1, i => do
    let (hasMore, i) ← readMore i
    if hasMore then readRest n i else return i

/-- Takes a record up to a character, in at most `n` steps. -/
def takeUpTo (ending : Char) : (n : Nat) → Inlet → Act (Option String × Inlet)
  | 0, i => return (none, i)
  | n + 1, i => do
    match i.rest.span (· ≠ ending) with
    | (text, _ :: rest) => return (some (String.ofList text), { i with rest := rest })
    | (text, []) =>
      let (hasMore, i) ← readMore i
      if hasMore then takeUpTo ending n i
      else if text.isEmpty then return (none, i)
      else return (some (String.ofList text), { i with rest := [] })

/-- The text in front of an empty line, and what comes after the empty lines. -/
def paragraph : List Char → List Char × List Char
  | '\n' :: '\n' :: rest => ([], rest.dropWhile (· = '\n'))
  | ['\n'] => ([], [])
  | c :: rest =>
    let (text, rest) := paragraph rest
    (c :: text, rest)
  | [] => ([], [])

/-- Takes the next record. -/
def takeRecord (i : Inlet) : Act (Option String × Inlet) := do
  match (← globalText "RS").toList with
  | [c] => takeUpTo c maxReads i
  | [] =>
    let i ← readRest maxReads i
    match i.rest.dropWhile (· = '\n') with
    | [] => return (none, { i with rest := [] })
    | text =>
      let (text, rest) := paragraph text
      return (some (String.ofList text), { i with rest := rest })
  | mark =>
    let r ← search (String.ofList mark)
    let i ← readRest maxReads i
    if i.rest.isEmpty then return (none, i)
    let s : Subject := ⟨i.rest.toArray, false, false⟩
    match (r.all s).find? fun m => m.start < m.stop with
    | some m =>
      return (some (String.ofList (i.rest.take m.start)), { i with rest := i.rest.drop m.stop })
    | none => return (some (String.ofList i.rest), { i with rest := [] })

/-! ## Inlets -/

/-- What a path holds, for reading records from it. -/
def openInlet (path : String) : Act (Except TreeFault Inlet) := do
  if path = "-" || path = "/dev/stdin" then return .ok ⟨path, [], some 0, none⟩
  let found ← (Run.readPath path : Run (Except TreeFault Bytes))
  match found with
  | .ok bytes => return .ok ⟨path, Bytewise.ofBytes bytes, none, none⟩
  | .error .isDirectory => fatal ("read error (" ++ TreeFault.isDirectory.message ++ ")")
  | .error fault => return .error fault

/-- A descriptor for something new. -/
def newDescriptor : Act Nat := do
  let n := (← get).nextDescriptor
  modify fun m => { m with nextDescriptor := n + 1 }
  return n

/-- What a command line prints, for reading records from it. -/
def openCommand (become : Becoming) (words : String) : Act Inlet := do
  let _ ← flush outputName
  let n ← newDescriptor
  let child ← (do
    let (_, source, sink) ← Run.addPipe false
    let child ← Run.fork (fun p => Run.withDescriptor 1 sink (withoutOpened p)) do
      match ← become ["sh", "-c", words] with
      | .ok status => return status
      | .error _ => return 127
    Run.setDescriptor n (some source)
    return child : Run Pid)
  return ⟨words, [], some n, some child⟩

/-- Takes a record from where a name leads: a file, or the output of a command line. -/
def takeFrom (become : Becoming) (isCommand : Bool) (name : String) : Act (Except Unit (Option String)) := do
  let inlets := (← get).inlets
  let isIt (i : Inlet) : Bool := i.name = name && i.child.isSome = isCommand
  let found ← match inlets.find? isIt with
    | some i => pure (.ok i)
    | none => if isCommand then .ok <$> openCommand become name else openInlet name
  match found with
  | .error _ => return .error ()
  | .ok i =>
    let (text?, i) ← takeRecord i
    modify fun m => { m with inlets := i :: m.inlets.filter (!isIt ·) }
    return .ok text?

/-- Closes an inlet, and tells with what status its command line ended. -/
def closeInlet (i : Inlet) : Act Nat := do
  match i.child with
  | none => return 0
  | some child =>
    i.descriptor.forM fun n => (Run.setDescriptor n none : Run Unit)
    let ending ← (Run.waitFor child : Run Ending)
    return match ending with
      | .exited status => status
      | .killed signal => 256 + signal

/-! ## Printing -/

/-- Opens a file for printing. -/
def openOutlet (path : String) (appends : Bool) : Act Outlet := do
  if path = "/dev/stderr" then return ⟨path, false, 2, [], 0, none⟩
  let n ← newDescriptor
  let found ← (do
    let mode ← Run.newMode 0o666
    match ← Run.openPath path ⟨some mode, !appends⟩ appends with
    | .ok id =>
      Run.setDescriptor n (some id)
      return none
    | .error fault => return some fault : Run (Option TreeFault))
  match found with
  | none => return ⟨path, false, n, [], 0, none⟩
  | some reason =>
    fatal ("cannot open \"" ++ path ++ "\" for output (" ++ reason.message ++ ")")

/-- Starts a command line that reads what is printed. -/
def openPrinter (become : Becoming) (words : String) : Act Outlet := do
  let _ ← flush outputName
  let n ← newDescriptor
  let child ← (do
    let (_, source, sink) ← Run.addPipe false
    let child ← Run.fork (fun p => Run.withDescriptor 0 source (withoutOpened p)) do
      match ← become ["sh", "-c", words] with
      | .ok status => return status
      | .error _ => return 127
    Run.setDescriptor n (some sink)
    return child : Run Pid)
  return ⟨words, true, n, [], 0, some child⟩

/-- Prints text to where a name leads. -/
def sayTo (become : Becoming) (isCommand appends : Bool) (name text : String) : Act Unit := do
  let isIt (o : Outlet) : Bool := o.name = name && o.isCommand = isCommand
  let o ← match (← get).outlets.find? isIt with
    | some o => pure o
    | none => if isCommand then openPrinter become name else openOutlet name appends
  modify fun m => { m with outlets := o :: m.outlets.filter (!isIt ·) }
  let o ← put o text
  modify fun m => { m with outlets := o :: m.outlets.filter (!isIt ·) }

/-- Closes all that has a name, and gives the status of that which was closed last. -/
def close (name : String) : Act Int := do
  let m ← get
  let outlets := m.outlets.filter (·.name = name)
  let inlets := m.inlets.filter (·.name = name)
  set { m with
    outlets := m.outlets.filter (·.name ≠ name)
    inlets := m.inlets.filter (·.name ≠ name) }
  let statuses ← outlets.mapM closeOutlet
  let others ← inlets.mapM closeInlet
  return match (statuses ++ others).getLast? with
    | some status => status
    | none => -1

/-- Runs a command line, and tells with what status it ended. -/
def system (become : Becoming) (words : String) : Act Nat := do
  flushAll
  let ending ← (do
    let child ← Run.fork withoutOpened do
      match ← become ["sh", "-c", words] with
      | .ok status => return status
      | .error _ => return 127
    Run.waitFor child : Run Ending)
  return match ending with
    | .exited status => status
    | .killed signal => 256 + signal

/-! ## The main input -/

/-- Gives a variable the value that an operand or an option writes. -/
def assign (name value : String) : Act Unit :=
  setVariable name (.input (unescape value))

/-- The variable and the value that a word assigns, if it does. -/
def assignment? (word : String) : Option (String × String) :=
  match word.toList.span (· ≠ '=') with
  | (c :: name, _ :: value) =>
    if isNameStart c && name.all isNameChar then some (String.ofList (c :: name), String.ofList value)
    else none
  | _ => none

/-- The number of the array of operands. -/
def operands : Nat := 0

/-- Opens the next operand that names a file, or the input if there is none, in at most `n` steps. -/
def openNext : (n : Nat) → Act (Option Inlet)
  | 0 => return none
  | n + 1 => do
    let count := (clamped (← global "ARGC").toNumber).toNat
    let m ← get
    if count ≤ m.next then
      if m.wasOpened then return none
      set { m with wasOpened := true }
      setGlobal "FILENAME" (.text "-")
      return some ⟨"-", [], some 0, none⟩
    set { m with next := m.next + 1 }
    let index := Elements.Index.number m.next
    if !(← withArray operands (·.contains index)) then openNext n
    else
      let word ← textOf (← withArray operands (·.get index))
      match assignment? word with
      | some (name, value) =>
        assign name value
        openNext n
      | none =>
        if word = "" then openNext n
        else
          modify fun m => { m with wasOpened := true }
          match ← openInlet word with
          | .ok i =>
            setGlobal "FILENAME" (.text word)
            setGlobal "FNR" (.number 0)
            return some i
          | .error reason => fatal ("cannot open \"" ++ word ++ "\" (" ++ reason.message ++ ")")

/-- Takes the next record of the main input, in at most `n` steps. -/
def takeMain : (n : Nat) → Act (Option String)
  | 0 => return none
  | n + 1 => do
    match (← get).main with
    | none =>
      match ← openNext maxReads with
      | none => return none
      | some i =>
        modify fun m => { m with main := some i }
        takeMain n
    | some i =>
      modify fun m => { m with main := none }
      let (text?, i) ← takeRecord i
      match text? with
      | some text =>
        modify fun m => { m with main := some i }
        let count (name : String) : Act Unit := do
          setGlobal name (.number ((← global name).toNumber + 1))
        count "NR"
        count "FNR"
        return some text
      | none => takeMain n

end Act

end Rebuild.Shell.Awk
