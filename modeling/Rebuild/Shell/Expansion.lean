import Rebuild.Shell.Arithmetic
import Rebuild.Shell.Pattern
import Rebuild.Shell.Scene

/-!
# Expanding words

A word stands for any number of fields. What comes from parameters, scripts and expressions outside
quotes is cut at separators, and each field is then taken as a pattern for paths. How the output of a
script is found out is left to `capture`.
-/

namespace Rebuild.Shell

/-- Text on the way to becoming fields: quoted or not, a value that is still to be cut, or the border
between two parameters. -/
inductive Segment where
  | text (text : String) (isQuoted : Bool)
  | value (text : String)
  | border
deriving DecidableEq, Repr

namespace Segment

/-- The text of a segment as a pattern. -/
def pattern : Segment → Pattern
  | text t isQuoted => t.toList.map (·, isQuoted)
  | value t => Pattern.ofText t
  | border => [(' ', true)]

/-- The text that segments come to where they are not cut. -/
def join (segments : List Segment) : String :=
  String.ofList (segments.flatMap fun s => s.pattern.text)

/-- Fields that are being put together: those that are complete, the last one first, the one that is
being put together, backwards, if it has begun, and whether a blank separator ended the one before. -/
structure Fields where
  complete : List Pattern
  current : Option Pattern
  afterBlank : Bool

namespace Fields

/-- Ends the field that is being put together. -/
def close (f : Fields) (byBlank : Bool) : Fields :=
  match f.current with
  | some field => ⟨field.reverse :: f.complete, none, byBlank⟩
  | none => f

/-- Adds text to the field that is being put together. -/
def add (f : Fields) (text : Pattern) : Fields :=
  { f with current := some (text.reverse ++ f.current.getD []), afterBlank := false }

/-- Adds a character of a value. Blank separators only end a field, another separator also stands for
an empty one, unless it follows a blank. -/
def addChar (separators : List Char) (f : Fields) (c : Char) : Fields :=
  if !separators.contains c then f.add [(c, false)]
  else if c = ' ' || c = '\t' || c = '\n' then f.close true
  else if f.current.isSome then f.close false
  else if f.afterBlank then { f with afterBlank := false }
  else { f with complete := [] :: f.complete }

/-- Adds a segment. -/
def addSegment (separators : List Char) (f : Fields) : Segment → Fields
  | .text t isQuoted => if t = "" && !isQuoted then f else f.add (t.toList.map (·, isQuoted))
  | .value t => t.toList.foldl (addChar separators) f
  | .border => { f.close false with afterBlank := false }

end Fields

/-- The fields that segments come to. -/
def fields (separators : List Char) (segments : List Segment) : List Pattern :=
  ((segments.foldl (Fields.addSegment separators) ⟨[], none, false⟩).close false).complete.reverse

end Segment

namespace Run

/-! ## Complaints of the shell -/

/-- Complains as the shell itself, or as the builtin that runs in it. -/
def complainAsShell (text : String) : Run Unit := do
  let p ← process
  let builtin := (p.builtin.map (· ++ ": ")).getD ""
  complain (p.name ++ ": " ++ toString p.line ++ ": " ++ builtin ++ text)

/-- The status of a shell that came upon an error. -/
def misuse : Nat := 2

/-- Fails because of an error that ends a shell. -/
def shellFault {α : Type} (text : String) : Run α := do
  complainAsShell text
  throw (.fault misuse)

/-! ## Variables -/

/-- The variable of a name. -/
def variableNamed (name : String) : Run (Option Variable) := do
  return (← process).vars.find? name

/-- The value of a variable. -/
def variableValue? (name : String) : Run (Option String) := do
  return (← variableNamed name).bind (·.value)

/-- Changes a variable. A fixed one cannot be changed. -/
def setVariable (name : String) (value : String) (exported : Bool) : Run Unit := do
  let p ← process
  let old := p.vars.find? name
  if old.any (·.isFixed) then shellFault (name ++ ": is read only")
  let exported := exported || old.any (·.isExported) || p.options.contains 'a'
  modifyProcess fun p => { p with
    vars := p.vars.bind name ⟨some value, exported, false⟩
    optionOffset := if name = "OPTIND" then 0 else p.optionOffset }

/-- The characters at which values are cut. -/
def separators : Run String := do
  return ((← variableValue? "IFS").getD " \t\n")

/-- The options of the shell as a row of letters. -/
def optionLetters (p : Process) : String :=
  String.ofList (['e', 'f', 'I', 'i', 'm', 'n', 's', 'x', 'v', 'C', 'a', 'b', 'u'].filter
    p.options.contains)

/-- The value of a parameter that has one value. -/
def paramValue? (name : String) : Run (Option String) := do
  let p ← process
  match name with
  | "?" => return some (toString p.status)
  | "$" => return some (toString p.shellId)
  | "#" => return some (toString p.params.length)
  | "0" => return some p.name
  | "!" => return p.lastBackground.map toString
  | "-" => return some (optionLetters p)
  | _ =>
    match name.toNat? with
    | some n => return p.params[n - 1]?
    | none => variableValue? name

/-- The text that stands between parameters which are put together. -/
def paramGlue : Run String := do
  return String.ofList ((← separators).toList.take 1)

/-! ## Words -/

/-- How words are expanded: what a script prints, and whether fields are cut. -/
structure Expander where
  capture : Command → Run String
  cuts : Bool

/-- A value as a segment. -/
def valueSegment (text : String) (inQuotes : Bool) : Segment :=
  if inQuotes then .text text true else .value text

/-- All parameters as segments. -/
def allParams (x : Expander) (name : String) (inQuotes : Bool) : Run (List Segment) := do
  let params := (← process).params
  if x.cuts && (name = "@" || !inQuotes) then
    return (params.map (valueSegment · inQuotes)).intersperse .border
  let glue ← if name = "@" then pure " " else paramGlue
  return [valueSegment (glue.intercalate params) inQuotes]

/-- The number that a variable holds. -/
def numberOf (name : String) : Run Int := do
  match (← variableValue? name).getD "" with
  | "" => return 0
  | text =>
    match Arithmetic.integer? text with
    | some n => return max (-(Int.pow 2 63)) (min n (Int.pow 2 63 - 1))
    | none => shellFault ("Illegal number: " ++ text)

/-- The value of an arithmetic expression. -/
def evaluate (text : String) : Run Int := do
  let complaint (reason : String) : String :=
    "arithmetic expression: " ++ reason ++ ": \"" ++ text ++ "\""
  match Arithmetic.ofText text with
  | .error reason => shellFault (complaint reason)
  | .ok expression =>
    expression.compute numberOf (fun name n => setVariable name (toString n) false)
      (shellFault (complaint "division by zero"))

/-- The directory that a word begins with which begins with a tilde, and the text after it. -/
def tilde? (text : String) (isWhole : Bool) : Run (Option (String × String)) := do
  match text.toList with
  | '~' :: rest =>
    let name := rest.takeWhile (· ≠ '/')
    if name.length = rest.length && !isWhole then return none
    let directory ← if name.isEmpty then variableValue? "HOME"
      else pure (if name = "root".toList then some "/root" else none)
    return directory.map fun directory => (directory, String.ofList (rest.drop name.length))
  | _ => return none

/-- The pieces of a word with a directory in place of a tilde in front. -/
def expandTilde (word : Word) : Run Word := do
  match word with
  | .plain text :: rest =>
    match ← tilde? text rest.isEmpty with
    | some (directory, text) => return .quoted directory :: .plain text :: rest
    | none => return word
  | _ => return word

mutual

/-- What the pieces of a word come to, in at most `n` steps. Text outside quotes is itself cut if
`cutsText` holds. -/
def segments (x : Expander) (n : Nat) (cutsText : Bool) (word : Word) : Run (List Segment) :=
  match n with
  | 0 => return []
  | n + 1 => do
    let parts ← word.mapM fun piece => segment x n cutsText piece
    return parts.flatten
termination_by structural n

/-- What a piece of a word comes to. -/
def segment (x : Expander) (n : Nat) (cutsText : Bool) (piece : Piece) : Run (List Segment) :=
  match n with
  | 0 => return []
  | n + 1 =>
    match piece with
    | .plain text => return [if cutsText then .value text else .text text false]
    | .quoted text => return [.text text true]
    | .param name use inQuotes => parameter x n name use inQuotes
    | .output script inQuotes => return [valueSegment (← x.capture script) inQuotes]
    | .arithmetic expression inQuotes => do
      let text ← segments { x with cuts := false } n false expression
      return [valueSegment (toString (← evaluate (Segment.join text))) inQuotes]
termination_by structural n

/-- What a parameter comes to. -/
def parameter (x : Expander) (n : Nat) (name : String) (use : ParamUse) (inQuotes : Bool) :
    Run (List Segment) :=
  match n with
  | 0 => return []
  | n + 1 => do
    let isList := name = "@" || name = "*"
    let params := (← process).params
    let glue ← paramGlue
    let value? ← if isList then
        pure (if params.isEmpty then none else some (glue.intercalate params))
      else paramValue? name
    let own : Run (List Segment) :=
      if isList then allParams x name inQuotes
      else return [valueSegment (value?.getD "") inQuotes]
    let required : Run Unit := do
      if value?.isNone && !isList && (← process).options.contains 'u' then
        shellFault (name ++ ": parameter not set")
    let isThere (nullToo : Bool) : Bool :=
      match value? with
      | some value => !nullToo || value ≠ ""
      | none => false
    let other (word : Word) : Run (List Segment) := do
      segments x n (!inQuotes) (← if inQuotes then pure word else expandTilde word)
    match use with
    | .value =>
      required
      own
    | .length =>
      required
      return [valueSegment (toString (value?.getD "").length) inQuotes]
    | .orElse nullToo word => if isThere nullToo then own else other word
    | .ifSet nullToo word => if isThere nullToo then other word else return []
    | .orAssign nullToo word =>
      if isThere nullToo then own
      else
        let text := Segment.join (← segments { x with cuts := false } n false (← expandTilde word))
        if !isName name then shellFault (name ++ ": bad variable name")
        setVariable name text false
        return [valueSegment text inQuotes]
    | .orFail nullToo word =>
      if isThere nullToo then own
      else
        let text := Segment.join (← segments { x with cuts := false } n false word)
        if word.isEmpty then
          shellFault (name ++ ": parameter not set" ++ if nullToo then " or null" else "")
        shellFault (name ++ ": " ++ text)
    | .trim side longest word =>
      required
      let pattern := (← segments { x with cuts := false } n false (← expandTilde word)).flatMap
        Segment.pattern
      let trimmed (text : String) : String := String.ofList <| match side with
        | .front => Pattern.trimFront pattern longest text.toList
        | .back => Pattern.trimBack pattern longest text.toList
      if isList then
        return ((← allParams x name inQuotes).map fun
          | .text t isQuoted => .text (trimmed t) isQuoted
          | .value t => .value (trimmed t)
          | .border => .border)
      return [valueSegment (trimmed (value?.getD "")) inQuotes]
    | .malformed => shellFault "Bad substitution"
termination_by structural n

end

/-- How deeply words can stand in words. -/
def maxNesting : Nat := 1000

/-- The fields that a word stands for. -/
def fieldsOf (capture : Command → Run String) (word : Word) : Run (List String) := do
  let found ← segments ⟨capture, true⟩ maxNesting false (← expandTilde word)
  let fields := Segment.fields (← separators).toList found
  if (← process).options.contains 'f' then
    return fields.map fun field => String.ofList field.text
  look fun tree here => fields.flatMap (Pattern.paths tree here)

/-- The text that a word stands for where it is not cut. -/
def textOf (capture : Command → Run String) (word : Word) : Run String := do
  return Segment.join (← segments ⟨capture, false⟩ maxNesting false (← expandTilde word))

/-- The text that is assigned to a variable. A tilde counts after each colon, too. -/
def valueOf (capture : Command → Run String) (word : Word) : Run String := do
  let word ← expandTilde word
  let pieces ← word.zipIdx.mapM fun (piece, i) => do
    match piece with
    | .plain text =>
      let isLast := i + 1 = word.length
      let parts := text.splitOn ":"
      let spelled ← (parts.zipIdx).mapM fun (part, j) => do
        if j = 0 then return part
        match ← tilde? part (isLast || j + 1 < parts.length) with
        | some (directory, rest) => return directory ++ rest
        | none => return part
      return Piece.plain (":".intercalate spelled)
    | _ => return piece
  return Segment.join (← segments ⟨capture, false⟩ maxNesting false pieces)

/-- The pattern that a word stands for. -/
def patternOf (capture : Command → Run String) (word : Word) : Run Pattern := do
  let found ← segments ⟨capture, false⟩ maxNesting false (← expandTilde word)
  return found.flatMap Segment.pattern

end Run

end Rebuild.Shell
