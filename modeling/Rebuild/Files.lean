import Rebuild.Text.Utf8
import Rebuild.Timestamp

/-!
# Files as a build sees them

Reading manifests, loading dependency files and looking for stale outputs need only two questions
about files: when was it last changed, and what does it hold. `FileView` is any answer to both. A
missing file is an answer to the first question, and a fault for the second.
-/

namespace Rebuild

/-- Why an operation on a file failed. -/
inductive IoFault where
  | missing
  | other (text : String)
deriving DecidableEq, Repr

/-- The fault in words. -/
def IoFault.message : IoFault → String
  | .missing => "entity not found"
  | .other text => text

/-- What can be asked about files: the modification time of a file that exists, and its contents. -/
structure FileView where
  stat : String → Except IoFault (Option Timestamp)
  read : String → Except IoFault Bytes

end Rebuild
