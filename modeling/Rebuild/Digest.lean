import Rebuild.Text.Utf8

/-!
# Digests

Numbers that stand for a text of bytes: digests in the manner of MD5 and of the SHA family, and cyclic
and plain check sums. A digest pads the text to whole blocks, and every block changes a state of a few
words.

The constants of the SHA family are the first bits of the roots of the first primes.
-/

namespace Rebuild.Digest

/-! ## Constants -/

/-- The first of the primes below 410, which are 80. -/
def primes (count : Nat) : List Nat :=
  let isPrime (n : Nat) : Bool := (List.range n).all fun d => d < 2 || n % d ≠ 0
  (((List.range 410).drop 2).filter isPrime).take count

/-- The largest number below 2 ^ 80 whose power is not greater than a number. -/
def root (power n : Nat) : Nat :=
  (List.range 80).reverse.foldl (fun r i =>
    let next := r + Nat.pow 2 i
    if Nat.pow next power ≤ n then next else r) 0

/-- The first bits after the point of a root. -/
def rootBits (power bits n : Nat) : Nat :=
  root power (n * Nat.pow 2 (bits * power)) % Nat.pow 2 bits

/-- The constants of MD5, the first bits of the sines of the numbers from 1. -/
def sineBits : List Nat :=
  [0xd76aa478, 0xe8c7b756, 0x242070db, 0xc1bdceee, 0xf57c0faf, 0x4787c62a, 0xa8304613, 0xfd469501,
    0x698098d8, 0x8b44f7af, 0xffff5bb1, 0x895cd7be, 0x6b901122, 0xfd987193, 0xa679438e, 0x49b40821,
    0xf61e2562, 0xc040b340, 0x265e5a51, 0xe9b6c7aa, 0xd62f105d, 0x02441453, 0xd8a1e681, 0xe7d3fbc8,
    0x21e1cde6, 0xc33707d6, 0xf4d50d87, 0x455a14ed, 0xa9e3e905, 0xfcefa3f8, 0x676f02d9, 0x8d2a4c8a,
    0xfffa3942, 0x8771f681, 0x6d9d6122, 0xfde5380c, 0xa4beea44, 0x4bdecfa9, 0xf6bb4b60, 0xbebfbc70,
    0x289b7ec6, 0xeaa127fa, 0xd4ef3085, 0x04881d05, 0xd9d4d039, 0xe6db99e5, 0x1fa27cf8, 0xc4ac5665,
    0xf4292244, 0x432aff97, 0xab9423a7, 0xfc93a039, 0x655b59c3, 0x8f0ccc92, 0xffeff47d, 0x85845dd1,
    0x6fa87e4f, 0xfe2ce6e0, 0xa3014314, 0x4e0811a1, 0xf7537e82, 0xbd3af235, 0x2ad7d2bb, 0xeb86d391]

/-! ## Words -/

/-- A number as bytes, the last one first. -/
def littleEndian (bytes n : Nat) : List Nat :=
  (List.range bytes).map fun i => n / Nat.pow 256 i % 256

/-- The number that bytes write, the last one first. -/
def ofLittleEndian (bytes : List Nat) : Nat :=
  bytes.foldr (fun b n => n * 256 + b) 0

/-- Turns the bits of a word of a size to the left. -/
def turn (size word count : Nat) : Nat :=
  (word <<< count) % Nat.pow 2 size ||| word >>> (size - count)

/-- A text of bytes padded to whole blocks: a bit that is set, zeros, and its length in bits. -/
def padded (block lengthBytes : Nat) (lastFirst : Bool) (bytes : List Nat) : List Nat :=
  let used := bytes.length + 1 + lengthBytes
  let length := littleEndian lengthBytes (bytes.length * 8)
  bytes ++ 0x80 :: List.replicate ((block - used % block) % block) 0 ++
    (if lastFirst then length else length.reverse)

/-- A list in pieces of a size. -/
def pieces {α : Type} (size : Nat) : (n : Nat) → List α → List (List α)
  | 0, _ | _, [] => []
  | n + 1, items => items.take size :: pieces size n (items.drop size)

/-- The words of blocks. -/
def blocks (block word lengthBytes : Nat) (lastFirst : Bool) (bytes : List Nat) : List (List Nat) :=
  let all := padded block lengthBytes lastFirst bytes
  (pieces block all.length all).map fun piece =>
    (pieces word piece.length piece).map fun w =>
      ofLittleEndian (if lastFirst then w else w.reverse)

/-- Bytes in digits. -/
def hexadecimal (bytes : List Nat) : String :=
  let digit (n : Nat) : Char := "0123456789abcdef".toList.getD n '0'
  String.ofList (bytes.flatMap fun b => [digit (b / 16), digit (b % 16)])

def not32 (n : Nat) : Nat := Nat.pow 2 32 - 1 - n

/-! ## MD5 -/

/-- How far the words are turned in the four rounds. -/
def turns (i : Nat) : Nat :=
  let row := match i / 16 with
    | 0 => [7, 12, 17, 22]
    | 1 => [5, 9, 14, 20]
    | 2 => [4, 11, 16, 23]
    | _ => [6, 10, 15, 21]
  row.getD (i % 4) 0

/-- Changes the state by a block. -/
def md5Block (state block : List Nat) : List Nat :=
  let words := block.toArray
  let step := fun ((a, b, c, d) : Nat × Nat × Nat × Nat) ((i, k) : Nat × Nat) =>
    let (f, g) := match i / 16 with
      | 0 => (b &&& c ||| not32 b &&& d, i)
      | 1 => (d &&& b ||| not32 d &&& c, 5 * i + 1)
      | 2 => (b ^^^ c ^^^ d, 3 * i + 5)
      | _ => (c ^^^ (b ||| not32 d), 7 * i)
    let f := (f + a + k + words.getD (g % 16) 0) % Nat.pow 2 32
    (d, (b + turn 32 f (turns i)) % Nat.pow 2 32, b, c)
  let start := (state.getD 0 0, state.getD 1 0, state.getD 2 0, state.getD 3 0)
  let (a, b, c, d) := ((List.range 64).zip sineBits).foldl step start
  (state.zip [a, b, c, d]).map fun (x, y) => (x + y) % Nat.pow 2 32

def md5 (bytes : List Nat) : List Nat :=
  ((blocks 64 4 8 true bytes).foldl md5Block
    [0x67452301, 0xefcdab89, 0x98badcfe, 0x10325476]).flatMap (littleEndian 4)

/-! ## SHA-1 -/

def sha1Block (state block : List Nat) : List Nat :=
  let words := (List.range 64).foldl (fun (w : Array Nat) i =>
    let at_ (j : Nat) : Nat := w.getD (i + 16 - j) 0
    w.push (turn 32 (at_ 3 ^^^ at_ 8 ^^^ at_ 14 ^^^ at_ 16) 1)) block.toArray
  let step := fun ((a, b, c, d, e) : Nat × Nat × Nat × Nat × Nat) (i : Nat) =>
    let (f, k) := match i / 20 with
      | 0 => (b &&& c ||| not32 b &&& d, 0x5a827999)
      | 1 => (b ^^^ c ^^^ d, 0x6ed9eba1)
      | 2 => (b &&& c ||| b &&& d ||| c &&& d, 0x8f1bbcdc)
      | _ => (b ^^^ c ^^^ d, 0xca62c1d6)
    ((turn 32 a 5 + f + e + k + words.getD i 0) % Nat.pow 2 32, a, turn 32 b 30, c, d)
  let start := (state.getD 0 0, state.getD 1 0, state.getD 2 0, state.getD 3 0, state.getD 4 0)
  let (a, b, c, d, e) := (List.range 80).foldl step start
  (state.zip [a, b, c, d, e]).map fun (x, y) => (x + y) % Nat.pow 2 32

def sha1 (bytes : List Nat) : List Nat :=
  ((blocks 64 4 8 false bytes).foldl sha1Block
    [0x67452301, 0xefcdab89, 0x98badcfe, 0x10325476, 0xc3d2e1f0]).flatMap fun w =>
      (littleEndian 4 w).reverse

/-! ## SHA-2 -/

/-- A digest of the second SHA family: the size of its words, its constants, and how far words are turned
and moved. -/
structure Sha2 where
  bits : Nat
  start : List Nat
  constants : List Nat
  /-- How far words are turned, and in the last place moved, to continue the words of a block. -/
  early : Nat × Nat × Nat
  late : Nat × Nat × Nat
  /-- How far words of the state are turned. -/
  first : Nat × Nat × Nat
  fifth : Nat × Nat × Nat

namespace Sha2

def turnRight (h : Sha2) (word count : Nat) : Nat := turn h.bits word (h.bits - count)

def mixTurned (h : Sha2) (turns : Nat × Nat × Nat) (word : Nat) : Nat :=
  h.turnRight word turns.1 ^^^ h.turnRight word turns.2.1 ^^^ h.turnRight word turns.2.2

def mixMoved (h : Sha2) (turns : Nat × Nat × Nat) (word : Nat) : Nat :=
  h.turnRight word turns.1 ^^^ h.turnRight word turns.2.1 ^^^ word >>> turns.2.2

/-- Changes the state by a block. -/
def block (h : Sha2) (state words : List Nat) : List Nat :=
  let size := Nat.pow 2 h.bits
  let words := (List.range (h.constants.length - 16)).foldl (fun (w : Array Nat) i =>
    let at_ (j : Nat) : Nat := w.getD (i + 16 - j) 0
    w.push ((at_ 16 + h.mixMoved h.early (at_ 15) + at_ 7 + h.mixMoved h.late (at_ 2)) % size))
    words.toArray
  let step := fun (s : List Nat) ((k, w) : Nat × Nat) =>
    match s with
    | [a, b, c, d, e, f, g, last] =>
      let one := last + h.mixTurned h.fifth e + (e &&& f ^^^ (size - 1 - e) &&& g) + k + w
      let two := h.mixTurned h.first a + (a &&& b ^^^ a &&& c ^^^ b &&& c)
      [(one + two) % size, a, b, c, (d + one) % size, e, f, g]
    | _ => s
  let after := (h.constants.zip words.toList).foldl step state
  (state.zip after).map fun (x, y) => (x + y) % size

/-- The digest of bytes. -/
def digest (h : Sha2) (bytes : List Nat) : List Nat :=
  let size := h.bits / 8
  ((blocks (16 * size) size (2 * size) false bytes).foldl h.block h.start).flatMap fun w =>
    (littleEndian size w).reverse

/-- The digest with words of 32 bits. -/
def short (start : List Nat) : Sha2 :=
  ⟨32, start, (primes 64).map (rootBits 3 32), (7, 18, 3), (17, 19, 10), (2, 13, 22), (6, 11, 25)⟩

/-- The digest with words of 64 bits. -/
def long (start : List Nat) : Sha2 :=
  ⟨64, start, (primes 80).map (rootBits 3 64), (1, 8, 7), (19, 61, 6), (28, 34, 39), (14, 18, 41)⟩

end Sha2

def sha256 (bytes : List Nat) : List Nat :=
  (Sha2.short ((primes 8).map (rootBits 2 32))).digest bytes

def sha224 (bytes : List Nat) : List Nat :=
  ((Sha2.short (((primes 16).drop 8).map fun p => rootBits 2 64 p % Nat.pow 2 32)).digest bytes).take 28

def sha512 (bytes : List Nat) : List Nat :=
  (Sha2.long ((primes 8).map (rootBits 2 64))).digest bytes

def sha384 (bytes : List Nat) : List Nat :=
  ((Sha2.long (((primes 16).drop 8).map (rootBits 2 64))).digest bytes).take 48

/-! ## Check sums -/

/-- Changes a cyclic check sum by a byte. -/
def cyclicStep (sum byte : Nat) : Nat :=
  (List.range 8).foldl (fun s _ =>
    let shifted := s * 2 % Nat.pow 2 32
    if s < Nat.pow 2 31 then shifted else shifted ^^^ 0x04c11db7) (sum ^^^ byte <<< 24)

/-- The cyclic check sum of bytes and of their number. -/
def cyclic (bytes : List Nat) : Nat :=
  let lengthBytes := (List.range 8).find? fun n => bytes.length < Nat.pow 256 n
  let all := bytes ++ littleEndian (lengthBytes.getD 8) bytes.length
  not32 (all.foldl cyclicStep 0)

/-- The sum of bytes, turned by a bit after each. -/
def turning (bytes : List Nat) : Nat :=
  bytes.foldl (fun s b => (turn 16 s 15 + b) % Nat.pow 2 16) 0

/-- The sum of bytes, folded into 16 bits. -/
def plain (bytes : List Nat) : Nat :=
  let sum := bytes.foldl (· + ·) 0 % Nat.pow 2 32
  let folded := sum % Nat.pow 2 16 + sum / Nat.pow 2 16
  folded % Nat.pow 2 16 + folded / Nat.pow 2 16

end Rebuild.Digest
