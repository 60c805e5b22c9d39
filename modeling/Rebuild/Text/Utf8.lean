/-!
# Characters and bytes

Text is a list of characters, file contents a list of bytes. `Utf8.pieces` cuts bytes at the front,
one character at a time; where no character can start or go on, the longest stretch that some
character could have begun with is one stray piece. `decode?` refuses a stray piece and
`decodeLossy` puts U+FFFD in its place, so both agree on well-formed bytes by construction.
-/

namespace Rebuild

/-- The contents of a file. -/
abbrev Bytes := List UInt8

namespace Utf8

/-- What a first byte announces: how many bytes follow, the range of the next one, and the bits that
the first byte contributes. -/
structure Lead where
  tails : Nat
  low : UInt8
  high : UInt8
  bits : Nat

/-- The first bytes of characters, with the ranges that keep out overlong forms, surrogates and code
points beyond U+10FFFF. -/
def lead? (b : UInt8) : Option Lead :=
  if b < 0x80 then some ⟨0, 0x80, 0xBF, b.toNat⟩
  else if b < 0xC2 then none
  else if b < 0xE0 then some ⟨1, 0x80, 0xBF, b.toNat - 0xC0⟩
  else if b = 0xE0 then some ⟨2, 0xA0, 0xBF, 0⟩
  else if b = 0xED then some ⟨2, 0x80, 0x9F, 0xD⟩
  else if b < 0xF0 then some ⟨2, 0x80, 0xBF, b.toNat - 0xE0⟩
  else if b = 0xF0 then some ⟨3, 0x90, 0xBF, 0⟩
  else if b < 0xF4 then some ⟨3, 0x80, 0xBF, b.toNat - 0xF0⟩
  else if b = 0xF4 then some ⟨3, 0x80, 0x8F, 4⟩
  else none

/-- Reads `n` more bytes of a character whose bits so far are `bits`, the next byte lying between
`low` and `high`. Stops before the first byte that does not fit. -/
def tails : (n : Nat) → (low high : UInt8) → (bits : Nat) → Bytes → Option Nat × Bytes
  | 0, _, _, bits, rest => (some bits, rest)
  | _ + 1, _, _, _, [] => (none, [])
  | n + 1, low, high, bits, b :: rest =>
    if low ≤ b ∧ b ≤ high then tails n 0x80 0xBF (bits * 64 + (b.toNat - 0x80)) rest
    else (none, b :: rest)

theorem length_tails_le (n : Nat) (low high : UInt8) (bits : Nat) (rest : Bytes) :
    (tails n low high bits rest).2.length ≤ rest.length := by
  induction rest generalizing n low high bits with
  | nil => cases n <;> simp [tails]
  | cons b rest ih =>
    cases n with
    | zero => simp [tails]
    | succ n =>
      simp only [tails]
      split
      · exact Nat.le_succ_of_le (ih ..)
      · simp

/-- Reads one piece: a character, or nothing for a stray stretch. -/
def piece (b : UInt8) (rest : Bytes) : Option Char × Bytes :=
  match lead? b with
  | none => (none, rest)
  | some l =>
    let (bits, rest) := tails l.tails l.low l.high l.bits rest
    (bits.map Char.ofNat, rest)

theorem length_piece_le (b : UInt8) (rest : Bytes) : (piece b rest).2.length ≤ rest.length := by
  unfold piece
  split
  · simp
  · exact length_tails_le ..

/-- All pieces of a byte list, a stray stretch being `none`. -/
def pieces : Bytes → List (Option Char)
  | [] => []
  | b :: rest => (piece b rest).1 :: pieces (piece b rest).2
termination_by bytes => bytes.length
decreasing_by exact Nat.lt_succ_of_le (length_piece_le b rest)

/-- Decodes bytes, refusing malformed ones. -/
def decode? (bytes : Bytes) : Option (List Char) :=
  (pieces bytes).mapM id

/-- Decodes bytes with U+FFFD for each stray stretch. -/
def decodeLossy (bytes : Bytes) : List Char :=
  (pieces bytes).map (·.getD '\uFFFD')

/-- The bytes of a text. -/
def encode (text : List Char) : Bytes :=
  text.flatMap String.utf8EncodeChar

/-- The number of bytes of a text. -/
def size (text : List Char) : Nat :=
  text.foldr (fun c size => c.utf8Size + size) 0

@[simp] theorem size_nil : size [] = 0 := rfl

@[simp] theorem size_cons (c : Char) (text : List Char) :
    size (c :: text) = c.utf8Size + size text := by
  simp [size]

@[simp] theorem size_append (a b : List Char) : size (a ++ b) = size a + size b := by
  induction a with
  | nil => simp
  | cons c a ih => simp [ih, Nat.add_assoc]

theorem length_encode (text : List Char) : (encode text).length = size text := by
  induction text with
  | nil => rfl
  | cons c text ih => simp_all [encode, size]

end Utf8

end Rebuild
