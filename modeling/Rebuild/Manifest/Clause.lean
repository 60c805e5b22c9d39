import Rebuild.Lexer

/-!
# Clauses of statements

The parts that statements of a manifest are made of, as they are written: bindings, lists of paths,
the end of a line, and the line that begins a build statement. Reading them needs the text only.
-/

namespace Rebuild.Manifest

open Lexer (skipSpaces location)

/-- A path as it is written, with its place. -/
structure WrittenPath where
  location : Location
  template : Template
deriving DecidableEq, Repr

/-- Reads `name = value`. -/
def binding : Reading (String × Template) := do
  let name ← Lexer.ident
  let _ ← Lexer.expect .equals
  let value ← Lexer.value .line
  return (name, value)

/-- Reads at most `n` paths, up to the first empty one. -/
def pathsUpTo : (n : Nat) → Reading (List WrittenPath)
  | 0 => return []
  | n + 1 => do
    skipSpaces
    let place ← location
    let path ← Lexer.value .path
    if path.isEmpty then return []
    let more ← pathsUpTo n
    return ⟨place, path⟩ :: more

/-- Reads paths up to the first empty one. There are at most as many as characters left. -/
def paths : Reading (List WrittenPath) := fun l =>
  pathsUpTo (l.cursor.rest.length + 1) l

/-- Reads paths if the separator comes next. -/
def pathsAfter (separator : TokenKind) : Reading (List WrittenPath) := do
  match ← Lexer.peek separator with
  | some _ => paths
  | none => return []

/-- Reads the end of the line, or of the file. -/
def lineEnd : Reading Unit := do
  let token ← Lexer.next
  if token.kind = .newline ∨ token.kind = .eof then return ()
  throw ⟨token.location, .unexpectedToken (.token .newline) token.kind⟩

/-- Reads a name that takes up the rest of the line, with its place. -/
def nameLine : Reading (Location × String) := do
  skipSpaces
  let place ← location
  let name ← Lexer.ident
  lineEnd
  return (place, name)

/-- The first line of a build statement, after the keyword. -/
structure BuildLine where
  explicitOuts : List WrittenPath
  implicitOuts : List WrittenPath
  rulePlace : Location
  ruleName : String
  explicitIns : List WrittenPath
  implicitIns : List WrittenPath
  orderOnlyIns : List WrittenPath
  validations : List WrittenPath
deriving DecidableEq, Repr

/-- Reads the first line of a build statement. -/
def buildLine : Reading BuildLine := do
  let explicitOuts ← paths
  if explicitOuts.isEmpty then throw ⟨← location, .missingOutputs⟩
  let implicitOuts ← pathsAfter .pipe
  let _ ← Lexer.expect .colon
  skipSpaces
  let rulePlace ← location
  let ruleName ← Lexer.ident
  let explicitIns ← paths
  let implicitIns ← pathsAfter .pipe
  let orderOnlyIns ← pathsAfter .pipe2
  let validations ← pathsAfter .pipeAt
  lineEnd
  return ⟨explicitOuts, implicitOuts, rulePlace, ruleName, explicitIns, implicitIns, orderOnlyIns,
    validations⟩

/-- Reads the paths of a `default` statement. -/
def targetLine : Reading (List WrittenPath) := do
  let targets ← paths
  if targets.isEmpty then throw ⟨← location, .expectedTarget⟩
  lineEnd
  return targets

/-- Reads the rest of the line as one path. -/
def pathLine : Reading WrittenPath := do
  skipSpaces
  let place ← location
  let path ← Lexer.value .line
  return ⟨place, path⟩

end Rebuild.Manifest
