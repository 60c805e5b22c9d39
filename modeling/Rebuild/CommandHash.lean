import Rebuild.Text.Utf8

/-!
# Command hashes

The build log remembers a command line by a 64-bit hash of its bytes, the 64-bit variant A of
MurmurHash2 with a fixed seed, so that hashes stay the same across runs. Whole blocks of eight bytes
are mixed in one after the other, then the remaining bytes at once.
-/

namespace Rebuild.CommandHash

def seed : UInt64 := 0xDECAFBADDECAFBAD

def multiplier : UInt64 := 0xC6A4A7935BD1E995

/-- Folds the high bits of a word onto its low bits. -/
def fold (h : UInt64) : UInt64 :=
  h ^^^ (h >>> 47)

/-- Up to eight bytes as a word, the first byte lowest. -/
def word : Bytes → UInt64
  | [] => 0
  | b :: rest => b.toUInt64 ^^^ (word rest <<< 8)

/-- Scrambles a block before it is mixed in. -/
def scramble (k : UInt64) : UInt64 :=
  fold (k * multiplier) * multiplier

/-- Mixes the bytes into the hash. -/
def mix (h : UInt64) : Bytes → UInt64
  | a :: b :: c :: d :: e :: f :: g :: i :: rest =>
    mix ((h ^^^ scramble (word [a, b, c, d, e, f, g, i])) * multiplier) rest
  | [] => h
  | rest => (h ^^^ word rest) * multiplier

/-- Spreads the last bits mixed in over the whole word. -/
def finish (h : UInt64) : UInt64 :=
  fold (fold h * multiplier)

/-- The hash of a byte list. -/
def ofBytes (data : Bytes) : UInt64 :=
  finish (mix (seed ^^^ (UInt64.ofNat data.length * multiplier)) data)

/-- The hash of a command line. -/
def ofCommand (command : String) : UInt64 :=
  ofBytes (Utf8.encode command.toList)

end Rebuild.CommandHash
