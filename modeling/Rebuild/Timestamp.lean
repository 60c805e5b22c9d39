/-!
# Times

A time is a count of nanoseconds since the Unix epoch, negative before it. The build log holds times
as unsigned words, so a time is clamped to their range on the way in.
-/

namespace Rebuild

/-- Nanoseconds since the Unix epoch. -/
abbrev Timestamp := Int

namespace Timestamp

def ofParts (seconds : Int) (nanos : Nat) : Timestamp :=
  seconds * 1000000000 + nanos

/-- The time as the build log holds it. -/
def toLog (t : Timestamp) : UInt64 :=
  UInt64.ofNat (min t.toNat (UInt64.size - 1))

/-- Whether a file time is later than another, a missing file being older than any file. -/
def isLater : Option Timestamp → Option Timestamp → Bool
  | none, _ => false
  | some _, none => true
  | some a, some b => decide (b < a)

/-- The later of two file times. -/
def latest (a b : Option Timestamp) : Option Timestamp :=
  if isLater b a then b else a

end Timestamp

end Rebuild
