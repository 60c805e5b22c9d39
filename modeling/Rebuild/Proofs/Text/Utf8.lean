import Mathlib.Data.List.Basic
import Rebuild.Text.Utf8

/-!
# Decoding what was encoded

Text survives being written as bytes and read again, also when well-formed bytes stand before it: no
character is read past its end.
-/

namespace Rebuild.Utf8

/-- What a first byte announces, by its number. -/
theorem lead?_ofNat {x : Nat} (hx : x < 256) : lead? (UInt8.ofNat x) =
    if x < 0x80 then some ⟨0, 0x80, 0xBF, x⟩
    else if x < 0xC2 then none
    else if x < 0xE0 then some ⟨1, 0x80, 0xBF, x - 0xC0⟩
    else if x = 0xE0 then some ⟨2, 0xA0, 0xBF, 0⟩
    else if x = 0xED then some ⟨2, 0x80, 0x9F, 0xD⟩
    else if x < 0xF0 then some ⟨2, 0x80, 0xBF, x - 0xE0⟩
    else if x = 0xF0 then some ⟨3, 0x90, 0xBF, 0⟩
    else if x < 0xF4 then some ⟨3, 0x80, 0xBF, x - 0xF0⟩
    else if x = 0xF4 then some ⟨3, 0x80, 0x8F, 4⟩
    else none := by
  have hnat : (UInt8.ofNat x).toNat = x := by simp [Nat.mod_eq_of_lt hx]
  simp only [lead?, UInt8.lt_iff_toNat_lt, ← UInt8.toNat_inj, hnat, UInt8.reduceToNat]

theorem tails_cons {n x bits : Nat} {low high : UInt8} {rest : Bytes} (hx : x < 256)
    (hlow : low.toNat ≤ x) (hhigh : x ≤ high.toNat) :
    tails (n + 1) low high bits (UInt8.ofNat x :: rest) =
      tails n 0x80 0xBF (bits * 64 + (x - 0x80)) rest := by
  have hnat : (UInt8.ofNat x).toNat = x := by simp [Nat.mod_eq_of_lt hx]
  rw [tails, if_pos, hnat]
  simp only [UInt8.le_iff_toNat_le, hnat]
  exact ⟨hlow, hhigh⟩

/-- A byte after the first ones carries six bits. -/
theorem tails_six {n v bits : Nat} {rest : Bytes} :
    tails (n + 1) 0x80 0xBF bits (UInt8.ofNat (v % 0x40 + 0x80) :: rest) =
      tails n 0x80 0xBF (bits * 64 + v % 0x40) rest := by
  rw [tails_cons (by omega) (show 0x80 ≤ _ by omega) (show _ ≤ 0xBF by omega),
    Nat.add_sub_cancel]

/-- A character that was encoded is the first piece. -/
theorem piece_encode (c : Char) (more : Bytes) : ∃ b rest,
    String.utf8EncodeChar c = b :: rest ∧ piece b (rest ++ more) = (some c, more) := by
  have hvalid : c.val.toNat < 0xD800 ∨ 0xDFFF < c.val.toNat ∧ c.val.toNat < 0x110000 := c.valid
  have hchar : ∀ bits, bits = c.val.toNat → Char.ofNat bits = c := by
    rintro _ rfl
    exact Char.ofNat_toNat c
  unfold String.utf8EncodeChar
  generalize c.val.toNat = v at hvalid hchar
  dsimp only
  split
  · refine ⟨_, _, rfl, ?_⟩
    rw [piece, lead?_ofNat (by omega), if_pos (by omega)]
    simp [tails, hchar]
  split
  · refine ⟨_, _, rfl, ?_⟩
    rw [piece, lead?_ofNat (by omega), if_neg (by omega), if_neg (by omega), if_pos (by omega)]
    simp only [List.cons_append, List.nil_append, tails_six]
    rw [tails, Option.map_some, hchar _ (by omega)]
  split
  · refine ⟨_, _, rfl, ?_⟩
    rw [piece, lead?_ofNat (by omega), if_neg (by omega), if_neg (by omega), if_neg (by omega)]
    simp only [List.cons_append, List.nil_append]
    -- the range of the second byte depends on the first one
    by_cases hfirst : v / 4096 % 16 = 0
    · rw [if_pos (by omega)]
      simp only
      rw [tails_cons (by omega) (show 0xA0 ≤ _ by omega) (show _ ≤ 0xBF by omega), tails_six,
        tails, Option.map_some, hchar _ (by omega)]
    by_cases hsurrogate : v / 4096 % 16 = 13
    · rw [if_neg (by omega), if_pos (by omega)]
      simp only
      rw [tails_cons (by omega) (show 0x80 ≤ _ by omega) (show _ ≤ 0x9F by omega), tails_six,
        tails, Option.map_some, hchar _ (by omega)]
    · rw [if_neg (by omega), if_neg (by omega), if_pos (by omega)]
      simp only [tails_six]
      rw [tails, Option.map_some, hchar _ (by omega)]
  · refine ⟨_, _, rfl, ?_⟩
    rw [piece, lead?_ofNat (by omega), if_neg (by omega), if_neg (by omega), if_neg (by omega),
      if_neg (by omega), if_neg (by omega), if_neg (by omega)]
    simp only [List.cons_append, List.nil_append]
    by_cases hfirst : v / 262144 % 8 = 0
    · rw [if_pos (by omega)]
      simp only
      rw [tails_cons (by omega) (show 0x90 ≤ _ by omega) (show _ ≤ 0xBF by omega), tails_six,
        tails_six, tails, Option.map_some, hchar _ (by omega)]
    by_cases hlast : v / 262144 % 8 = 4
    · rw [if_neg (by omega), if_neg (by omega), if_pos (by omega)]
      simp only
      rw [tails_cons (by omega) (show 0x80 ≤ _ by omega) (show _ ≤ 0x8F by omega), tails_six,
        tails_six, tails, Option.map_some, hchar _ (by omega)]
    · rw [if_neg (by omega), if_pos (by omega)]
      simp only [tails_six]
      rw [tails, Option.map_some, hchar _ (by omega)]

/-- Reading the rest of a character does not look past its end. -/
theorem tails_append {n value bits : Nat} {low high : UInt8} {bytes : Bytes} (more : Bytes)
    (h : (tails n low high bits bytes).1 = some value) : tails n low high bits (bytes ++ more) =
      (some value, (tails n low high bits bytes).2 ++ more) := by
  induction bytes generalizing n low high bits with
  | nil =>
    cases n with
    | zero => cases h; rw [tails, tails, List.nil_append]
    | succ n => cases h
  | cons b bytes ih =>
    cases n with
    | zero => cases h; rfl
    | succ n =>
      rw [tails] at h
      rw [List.cons_append, tails, tails]
      split
      · next hrange => rw [if_pos hrange] at h; exact ih h
      · next hrange => rw [if_neg hrange] at h; cases h

theorem piece_append {b : UInt8} {rest : Bytes} {c : Char} (more : Bytes)
    (h : (piece b rest).1 = some c) :
    piece b (rest ++ more) = (some c, (piece b rest).2 ++ more) := by
  unfold piece at h ⊢
  cases hlead : lead? b with
  | none => rw [hlead] at h; cases h
  | some l =>
    rw [hlead] at h
    obtain ⟨value, hvalue, rfl⟩ := Option.map_eq_some_iff.mp h
    simp only [tails_append more hvalue, Option.map_some]

theorem decode?_cons (b : UInt8) (rest : Bytes) : decode? (b :: rest) =
    (piece b rest).1.bind fun c => (decode? (piece b rest).2).map (c :: ·) := by
  unfold decode?
  rw [pieces, List.mapM_cons]
  cases (piece b rest).1 <;> cases (pieces (piece b rest).2).mapM id <;> rfl

theorem decode?_eq_some_nil {bytes : Bytes} (h : decode? bytes = some []) : bytes = [] := by
  cases bytes with
  | nil => rfl
  | cons b rest =>
    rw [decode?_cons] at h
    obtain ⟨c, -, hrest⟩ := Option.bind_eq_some_iff.mp h
    obtain ⟨text, -, hnil⟩ := Option.map_eq_some_iff.mp hrest
    cases hnil

/-- Bytes that are well-formed are read alike whatever stands after them. -/
theorem decode?_append {bytes : Bytes} {text : List Char} (more : Bytes)
    (h : decode? bytes = some text) :
    decode? (bytes ++ more) = (decode? more).map (text ++ ·) := by
  induction bytes using pieces.induct generalizing text with
  | case1 =>
    obtain rfl : [] = text := Option.some.inj (by rw [← h]; simp [decode?, pieces])
    simp
  | case2 b rest ih =>
    rw [decode?_cons] at h
    obtain ⟨c, hc, hrest⟩ := Option.bind_eq_some_iff.mp h
    obtain ⟨text, htext, rfl⟩ := Option.map_eq_some_iff.mp hrest
    rw [List.cons_append, decode?_cons, piece_append more hc, Option.bind_some, ih htext,
      Option.map_map]
    rfl

/-- Text that was encoded is read as it is. -/
theorem decode?_encode_append (text : List Char) (more : Bytes) :
    decode? (encode text ++ more) = (decode? more).map (text ++ ·) := by
  induction text with
  | nil => simp [encode]
  | cons c text ih =>
    obtain ⟨b, rest, hencode, hpiece⟩ := piece_encode c (encode text ++ more)
    rw [encode, List.flatMap_cons, hencode, List.append_assoc, List.cons_append, decode?_cons,
      ← encode, hpiece, Option.bind_some, ih, Option.map_map]
    rfl

theorem decode?_encode (text : List Char) : decode? (encode text) = some text := by
  have h := decode?_encode_append text []
  rw [List.append_nil] at h
  rw [h]
  simp [decode?, pieces]

theorem encode_append (a b : List Char) : encode (a ++ b) = encode a ++ encode b :=
  List.flatMap_append

/-! ## Sizes -/

theorem size_pos {text : List Char} (h : text ≠ []) : 0 < size text := by
  obtain ⟨c, rest, rfl⟩ := List.exists_cons_of_ne_nil h
  have := c.utf8Size_pos
  rw [size_cons]
  omega

theorem length_le_size (text : List Char) : text.length ≤ size text := by
  induction text with
  | nil => exact Nat.le_refl _
  | cons c rest ih =>
    have := c.utf8Size_pos
    rw [List.length_cons, size_cons]
    omega

theorem size_le_of_prefix {p q : List Char} (h : p <+: q) : size p ≤ size q := by
  obtain ⟨more, rfl⟩ := h
  rw [size_append]
  omega

end Rebuild.Utf8
