import Mathlib.Algebra.Group.Nat.Defs
import Mathlib.Logic.Function.Basic
import Rebuild.CommandHash
import Rebuild.Proofs.Text.Utf8

/-!
# Local edits of a command

Every step of the hash can be taken back: the multiplier is odd and so has an inverse, folding twice
is folding not at all, and a word holds its bytes side by side. So the hash tells what the state was
before any block that is known, and what a block was if the state before it is known. Two commands
of one length that differ in a single block are therefore told apart, however long they are.
-/

namespace Rebuild.CommandHash

open Function (Injective LeftInverse)

/-! ## Steps on the state -/

/-- The inverse of the multiplier. -/
def divisor : UInt64 := 0x5F7A0EA7E59B19BD

theorem mul_multiplier_injective : Injective (· * multiplier) := by
  have hone : multiplier * divisor = 1 := by decide
  have hinverse : LeftInverse (· * divisor) (· * multiplier) := fun h => by
    simp only [UInt64.mul_assoc, hone, UInt64.mul_one]
  exact hinverse.injective

/-- What is folded down comes from so high up that a second time nothing of it is left. -/
theorem fold_fold (h : UInt64) : fold (fold h) = h := by
  have hshift : h >>> 47 >>> 47 = 0 := by
    refine UInt64.toNat_inj.mp ?_
    have hlt := h.toNat_lt
    simp only [UInt64.toNat_shiftRight, UInt64.reduceToNat, Nat.reduceMod,
      Nat.shiftRight_eq_div_pow, Nat.reducePow]
    omega
  unfold fold
  rw [UInt64.shiftRight_xor, hshift, UInt64.xor_zero, UInt64.xor_assoc, UInt64.xor_self,
    UInt64.xor_zero]

theorem fold_injective : Injective fold :=
  LeftInverse.injective fold_fold

theorem xor_word_injective (k : UInt64) : Injective (· ^^^ k) :=
  fun _ _ => (UInt64.xor_left_inj k).mp

theorem scramble_injective : Injective scramble :=
  mul_multiplier_injective.comp (fold_injective.comp mul_multiplier_injective)

theorem finish_injective : Injective finish :=
  fold_injective.comp (mul_multiplier_injective.comp fold_injective)

/-! ## Words -/

/-- A byte takes up the lowest eight bits, if the highest eight are free. -/
theorem toNat_word_cons (b : UInt8) {rest : Bytes} (h : (word rest).toNat < 2 ^ 56) :
    (word (b :: rest)).toNat = b.toNat + 256 * (word rest).toNat := by
  have hshift : (word rest <<< 8).toNat = 256 * (word rest).toNat := by
    simp only [UInt64.toNat_shiftLeft, UInt64.reduceToNat, Nat.reduceMod, Nat.shiftLeft_eq,
      Nat.reducePow]
    omega
  have hb := b.toNat_lt
  have hlow : (word (b :: rest)).toNat % 2 ^ 8 = b.toNat := by
    rw [word, UInt64.toNat_xor, hshift, Nat.xor_mod_two_pow]
    simp [Nat.mod_eq_of_lt hb]
  have hhigh : (word (b :: rest)).toNat / 2 ^ 8 = (word rest).toNat := by
    rw [word, UInt64.toNat_xor, hshift, Nat.xor_div_two_pow]
    simp [Nat.div_eq_of_lt hb]
  omega

theorem word_lt {bytes : Bytes} (h : bytes.length ≤ 8) :
    (word bytes).toNat < 256 ^ bytes.length := by
  induction bytes with
  | nil => decide
  | cons b rest ih =>
    have hrest := ih (Nat.le_of_succ_le h)
    have hroom : (word rest).toNat < 2 ^ 56 :=
      Nat.lt_of_lt_of_le hrest (Nat.pow_le_pow_right (by decide) (Nat.le_of_succ_le_succ h))
    have hb := b.toNat_lt
    rw [toNat_word_cons b hroom, List.length_cons, Nat.pow_succ]
    omega

/-- Bytes are told apart by their word. -/
theorem word_injective {a b : Bytes} (hlength : a.length = b.length) (h : a.length ≤ 8)
    (heq : word a = word b) : a = b := by
  induction a generalizing b with
  | nil => exact (List.length_eq_zero_iff.mp hlength.symm).symm
  | cons x a ih =>
    cases b with
    | nil => cases hlength
    | cons y b =>
      have hlength' : a.length = b.length := Nat.succ.inj hlength
      have hroom {c : Bytes} (hc : c.length ≤ 7) : (word c).toNat < 2 ^ 56 :=
        Nat.lt_of_lt_of_le (word_lt (Nat.le_succ_of_le hc)) (Nat.pow_le_pow_right (by decide) hc)
      have ha : a.length ≤ 7 := Nat.le_of_succ_le_succ h
      have hnat := congrArg UInt64.toNat heq
      rw [toNat_word_cons x (hroom ha), toNat_word_cons y (hroom (hlength' ▸ ha))] at hnat
      have hx := x.toNat_lt
      have hy := y.toNat_lt
      obtain ⟨hbyte, hrest⟩ : x.toNat = y.toNat ∧ (word a).toNat = (word b).toNat := by omega
      rw [UInt8.toNat_inj.mp hbyte,
        ih hlength' (Nat.le_of_succ_le h) (UInt64.toNat_inj.mp hrest)]

/-! ## Blocks -/

/-- A whole block is mixed in before all that follows. -/
theorem mix_block {block : Bytes} (hblock : block.length = 8) (h : UInt64) (rest : Bytes) :
    mix h (block ++ rest) = mix ((h ^^^ scramble (word block)) * multiplier) rest := by
  obtain ⟨a, b, c, d, e, f, g, i, rfl⟩ : ∃ a b c d e f g i, block = [a, b, c, d, e, f, g, i] := by
    rcases block with _ | ⟨a, _ | ⟨b, _ | ⟨c, _ | ⟨d, _ | ⟨e, _ | ⟨f, _ | ⟨g, _ | ⟨i, block⟩⟩⟩⟩⟩⟩⟩⟩
    all_goals simp at hblock
    exact ⟨a, b, c, d, e, f, g, i, by rw [hblock]⟩
  rw [List.cons_append, List.cons_append, List.cons_append, List.cons_append, List.cons_append,
    List.cons_append, List.cons_append, List.cons_append, List.nil_append, mix]

/-- The bytes after the last whole block are mixed in at once. -/
theorem mix_remainder {bytes : Bytes} (hne : bytes ≠ []) (hlt : bytes.length < 8) (h : UInt64) :
    mix h bytes = (h ^^^ word bytes) * multiplier := by
  refine mix.eq_3 h bytes ?_ hne
  rintro a b c d e f g i rest rfl
  simp at hlt
  omega

/-- Whole blocks in front are mixed in first. -/
theorem mix_append {before : Bytes} {n : Nat} (hbefore : before.length = 8 * n) (h : UInt64)
    (rest : Bytes) : mix h (before ++ rest) = mix (mix h before) rest := by
  induction n generalizing h before with
  | zero =>
    obtain rfl := List.length_eq_zero_iff.mp hbefore
    rfl
  | succ n ih =>
    have hblock : (before.take 8).length = 8 := by
      rw [List.length_take]
      omega
    have hrest : (before.drop 8).length = 8 * n := by
      rw [List.length_drop]
      omega
    rw [← List.take_append_drop 8 before, List.append_assoc, mix_block hblock, mix_block hblock,
      ih hrest]

/-- Bytes that are known can be taken out of the state again. -/
theorem mix_injective (bytes : Bytes) : Injective (mix · bytes) := by
  intro h h' heq
  induction hn : bytes.length / 8 generalizing h h' bytes with
  | zero =>
    by_cases hnil : bytes = []
    · subst hnil
      exact heq
    · have hlt : bytes.length < 8 := by omega
      simp only [mix_remainder hnil hlt] at heq
      exact xor_word_injective _ (mul_multiplier_injective heq)
  | succ n ih =>
    have hblock : (bytes.take 8).length = 8 := by
      rw [List.length_take]
      omega
    rw [← List.take_append_drop 8 bytes] at heq
    simp only [mix_block hblock] at heq
    have hrest : (bytes.drop 8).length / 8 = n := by
      rw [List.length_drop]
      omega
    exact xor_word_injective _ (mul_multiplier_injective (ih _ heq hrest))

/-- The first block is told by the state after all bytes, if the others are known. -/
theorem mix_block_injective {block block' after : Bytes} {h : UInt64}
    (hlength : block.length = block'.length)
    (hblock : block.length = 8 ∨ block.length < 8 ∧ after = [])
    (heq : mix h (block ++ after) = mix h (block' ++ after)) : block = block' := by
  obtain hblock | ⟨hlt, rfl⟩ := hblock
  · rw [mix_block hblock, mix_block (hlength ▸ hblock)] at heq
    have hstate := mul_multiplier_injective (mix_injective after heq)
    have hscramble := (UInt64.xor_right_inj h).mp hstate
    exact word_injective hlength (Nat.le_of_eq hblock) (scramble_injective hscramble)
  · by_cases hnil : block = []
    · subst hnil
      exact (List.length_eq_zero_iff.mp hlength.symm).symm
    have hnil' : block' ≠ [] := List.ne_nil_of_length_pos
      (hlength ▸ List.length_pos_of_ne_nil hnil)
    rw [List.append_nil, List.append_nil, mix_remainder hnil hlt,
      mix_remainder hnil' (hlength ▸ hlt)] at heq
    have hstate := mul_multiplier_injective heq
    exact word_injective hlength (Nat.le_of_lt hlt) ((UInt64.xor_right_inj h).mp hstate)

/-- Bytes of one length that differ in a single block are told apart. -/
theorem ofBytes_ne {a b : Bytes} {block : Nat} (hne : a ≠ b) (hlength : a.length = b.length)
    (hbefore : a.take (8 * block) = b.take (8 * block))
    (hafter : a.drop (8 * block + 8) = b.drop (8 * block + 8)) : ofBytes a ≠ ofBytes b := by
  intro heq
  have hmix := finish_injective heq
  rw [← hlength] at hmix
  -- the blocks in front, the block that may differ, and all the rest
  have hsplit (bytes : Bytes) : bytes.take (8 * block) ++
      ((bytes.drop (8 * block)).take 8 ++ bytes.drop (8 * block + 8)) = bytes := by
    rw [← List.drop_drop, List.take_append_drop, List.take_append_drop]
  by_cases hshort : a.length ≤ 8 * block
  · rw [List.take_of_length_le hshort, List.take_of_length_le (hlength ▸ hshort)] at hbefore
    exact hne hbefore
  have hwhole : (a.take (8 * block)).length = 8 * block := by
    rw [List.length_take]
    omega
  have hlength' : ((a.drop (8 * block)).take 8).length = ((b.drop (8 * block)).take 8).length := by
    simp only [List.length_take, List.length_drop, hlength]
  have hblock : ((a.drop (8 * block)).take 8).length = 8 ∨
      ((a.drop (8 * block)).take 8).length < 8 ∧ a.drop (8 * block + 8) = [] := by
    rw [List.drop_eq_nil_iff, List.length_take, List.length_drop]
    omega
  rw [← hsplit a, ← hsplit b, ← hbefore, ← hafter, mix_append hwhole, mix_append hwhole] at hmix
  have hsame := mix_block_injective hlength' hblock hmix
  exact hne (by rw [← hsplit a, ← hsplit b, hbefore, hafter, hsame])

theorem encode_injective : Injective Utf8.encode := fun a b h => by
  have := congrArg Utf8.decode? h
  rwa [Utf8.decode?_encode, Utf8.decode?_encode, Option.some_inj] at this

/-- A local edit of a command is noticed: commands of equally many bytes whose bytes are the same
before and after one block of eight have different hashes. The block may be the last one, which may
be shorter. -/
theorem ofCommand_ne_of_local_edit {c d : String} (block : Nat) (hne : c ≠ d)
    (hlength : (Utf8.encode c.toList).length = (Utf8.encode d.toList).length)
    (hbefore : (Utf8.encode c.toList).take (8 * block) = (Utf8.encode d.toList).take (8 * block))
    (hafter : (Utf8.encode c.toList).drop (8 * block + 8) =
      (Utf8.encode d.toList).drop (8 * block + 8)) : ofCommand c ≠ ofCommand d :=
  ofBytes_ne (fun h => hne (String.toList_inj.mp (encode_injective h))) hlength hbefore hafter

/-- Another file in the last bytes of a command, and another option in front of many others. -/
theorem ofCommand_ne_of_local_edit_compiler :
    ofCommand "cc -O2 -c a.c" ≠ ofCommand "cc -O2 -c b.c" ∧
      ofCommand "cc -O2 -Wall -c a.c -o a.o" ≠ ofCommand "cc -O3 -Wall -c a.c -o a.o" :=
  ⟨ofCommand_ne_of_local_edit 1 (by decide) (by decide) (by decide) (by decide),
    ofCommand_ne_of_local_edit 0 (by decide) (by decide) (by decide) (by decide)⟩

end Rebuild.CommandHash
