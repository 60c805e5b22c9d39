import Rebuild.Text.Utf8

/-!
# Text byte by byte

The shell and its tools work on bytes, whatever characters these may write. Their texts have one
character for each byte, with the number of the byte. `ofText` and `toText` lead from ordinary text to
such text and back.
-/

namespace Rebuild.Bytewise

/-- Bytes as text with a character for each. -/
def ofBytes (bytes : Bytes) : List Char :=
  bytes.map fun b => Char.ofNat b.toNat

/-- The bytes that characters stand for. -/
def toBytes (text : List Char) : Bytes :=
  text.map fun c => UInt8.ofNat c.toNat

theorem toBytes_ofBytes (bytes : Bytes) : toBytes (ofBytes bytes) = bytes := by
  have h (b : UInt8) : UInt8.ofNat (Char.ofNat b.toNat).toNat = b := by
    have hb : b.toNat < 256 := b.toNat_lt
    have : (Char.ofNat b.toNat).toNat = b.toNat := by
      rw [Char.ofNat, dif_pos (Or.inl (by omega))]
      rfl
    simp [this]
  induction bytes with
  | nil => rfl
  | cons b rest ih => simp_all [toBytes, ofBytes]

/-- Whether a text is the same byte by byte. -/
def isPlain (text : String) : Bool :=
  text.toList.all (· < '\x80')

/-- Ordinary text with a character for each of its bytes. -/
def ofText (text : String) : String :=
  if isPlain text then text else String.ofList (ofBytes (Utf8.encode text.toList))

/-- The text that bytes write. Malformed bytes are replaced. -/
def toText (text : String) : String :=
  if isPlain text then text else String.ofList (Utf8.decodeLossy (toBytes text.toList))

end Rebuild.Bytewise
