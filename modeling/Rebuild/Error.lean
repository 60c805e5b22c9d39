import Rebuild.Files
import Rebuild.Text.Quoted
import Rebuild.Token

/-!
# Errors

Everything that can go wrong with a manifest or a build, as causes. `SyntaxFault.message` and
`Error.message` hold all wording; `Error.report` adds the fault underneath, where there is one.
-/

namespace Rebuild

open Text (quote quoteChar quoteList)

/-- What a manifest should have had in place of a token. -/
inductive Expected where
  | token (kind : TokenKind)
  | statement
deriving DecidableEq, Repr

def Expected.describe : Expected → String
  | .token kind => kind.describe
  | .statement => "statement"

/-- What is wrong at a place in a manifest. -/
inductive SyntaxFault where
  | unexpectedChar (c : Char)
  | unexpectedToken (expected : Expected) (found : TokenKind)
  | expectedIdent
  | unexpectedIndent
  | badEscape
  | unterminatedBrace
  | unknownRule (name : String)
  | duplicateRule (name : String)
  | missingCommand (name : String)
  | unexpectedVariable (name : String)
  | unknownPool (name : String)
  | duplicatePool (name : String)
  | missingPoolDepth (name : String)
  | invalidPoolDepth (text : String)
  | multipleProducers (path : String)
  | missingOutputs
  | emptyPath
  | expectedTarget
deriving DecidableEq, Repr

def SyntaxFault.message : SyntaxFault → String
  | .unexpectedChar c => "Unexpected character " ++ quoteChar c
  | .unexpectedToken expected found =>
    "Expected " ++ expected.describe ++ ", found " ++ found.describe
  | .expectedIdent => "Expected identifier"
  | .unexpectedIndent => "Unexpected indentation"
  | .badEscape => "Bad $-escape (literal $ must be written as $$)"
  | .unterminatedBrace => "Expected closing `\x7d` for variable reference"
  | .unknownRule name => "Unknown build rule " ++ quote name
  | .duplicateRule name => "Duplicate rule " ++ quote name
  | .missingCommand name => "Expected `command =` line in rule " ++ quote name
  | .unexpectedVariable name => "Unexpected variable " ++ quote name
  | .unknownPool name => "Unknown pool name " ++ quote name
  | .duplicatePool name => "Duplicate pool " ++ quote name
  | .missingPoolDepth name => "Expected `depth =` line in pool " ++ quote name
  | .invalidPoolDepth text => "Invalid pool depth " ++ quote text
  | .multipleProducers path => "Multiple rules generate " ++ quote path
  | .missingOutputs => "Expected at least one output path"
  | .emptyPath => "Empty path"
  | .expectedTarget => "Expected target name"

/-- A fault with its place. -/
structure LocatedFault where
  location : Location
  fault : SyntaxFault
deriving DecidableEq, Repr

/-- A file that is needed, does not exist, and that nothing can make. -/
structure MissingInput where
  path : String
  neededBy : Option String
deriving DecidableEq, Repr

def MissingInput.message (m : MissingInput) : String :=
  match m.neededBy with
  | some dependent =>
    quote m.path ++ ", needed by " ++ quote dependent ++
      ", is missing and no known rule can make it"
  | none => quote m.path ++ " is missing and no known rule can make it"

/-- Why reading a manifest or building failed. -/
inductive Error where
  | cannotRead (path : String) (cause : IoFault)
  | malformed (file : String) (place : Location) (fault : SyntaxFault)
  /-- The stack is too small for the files that are nested. -/
  | nestedTooDeeply (file : String)
  | dependencyCycle (cycle : List String)
  | cannotStat (path : String) (cause : IoFault)
  | missingInputs (missing : List MissingInput)
  | depfileMissingColon (depfile : String)
  | depfileMissingOutputs (depfile : String) (outputs : List String) (found : String)
  | unknownTarget (target : String)
  | unknownParallelism (cause : IoFault)
  | buildFailed (failed : Nat)
  | cannotOpenLog (path : String) (cause : IoFault)
  | cannotWriteLog (path : String) (cause : IoFault)
  | cannotRemove (path : String) (cause : IoFault)
  | cannotCreateDir (path : String) (cause : IoFault)
  | cannotWrite (path : String) (cause : IoFault)
  | cannotSpawn (command : String) (cause : IoFault)
  | interrupted
deriving DecidableEq, Repr

namespace Error

/-- The error in words. -/
def message : Error → String
  | .cannotRead path _ => "Unable to read file " ++ quote path
  | .malformed file place fault =>
    file ++ ":" ++ toString place.line ++ ":" ++ toString place.column ++ ": " ++ fault.message
  | .nestedTooDeeply file => "Build files are nested too deeply at " ++ quote file
  | .dependencyCycle cycle => "Dependency cycle: " ++ " -> ".intercalate cycle
  | .cannotStat path _ => "Unable to stat " ++ quote path
  | .missingInputs missing => "\n".intercalate (missing.map MissingInput.message)
  | .depfileMissingColon depfile => "Dependency file " ++ quote depfile ++ " was missing a `:`"
  | .depfileMissingOutputs depfile outputs found =>
    "Dependency file " ++ quote depfile ++ " has output " ++ quote found ++ ", expected one of " ++
      quoteList outputs
  | .unknownTarget target => "Unknown target " ++ quote target
  | .unknownParallelism _ =>
    "Unable to query system for available parallelism for default number of jobs"
  | .buildFailed failed => "Build failed: " ++ toString failed ++ " command(s) failed"
  | .cannotOpenLog path _ => "Unable to open build log " ++ quote path
  | .cannotWriteLog path _ => "Unable to write to build log " ++ quote path
  | .cannotRemove path _ => "Unable to remove " ++ quote path
  | .cannotCreateDir path _ => "Unable to create directory " ++ quote path
  | .cannotWrite path _ => "Unable to write file " ++ quote path
  | .cannotSpawn command _ => "Unable to spawn " ++ quote command
  | .interrupted => "Interrupted"

/-- The fault underneath an error. -/
def cause? : Error → Option IoFault
  | .cannotRead _ cause | .cannotStat _ cause | .unknownParallelism cause | .cannotOpenLog _ cause
  | .cannotWriteLog _ cause | .cannotRemove _ cause | .cannotCreateDir _ cause
  | .cannotWrite _ cause | .cannotSpawn _ cause => some cause
  | _ => none

/-- The error in words with the fault underneath. -/
def report (e : Error) : String :=
  match e.cause? with
  | some cause => e.message ++ "\n  caused by: " ++ cause.message
  | none => e.message

/-- The error for a fault in a manifest. -/
def ofFault (file : String) (f : LocatedFault) : Error :=
  .malformed file f.location f.fault

end Error

end Rebuild
