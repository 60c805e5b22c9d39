import Mathlib.Data.Nat.Notation
import Rebuild.Text.Numeral

/-!
# Reading numerals that were written

A number that is written in a base up to sixteen is read as it was, and its digits are neither
blanks nor signs.
-/

namespace Rebuild.Numeral

theorem digit?_digitChar {base d : ℕ} (hbase : base ≤ 16) (hd : d < base) :
    digit? base d.digitChar = some d := by
  have hdigit : ∀ d < 16, digit? 16 (Nat.digitChar d) = some d := by decide
  have hvalue := hdigit d (by omega)
  unfold digit? at hvalue ⊢
  obtain ⟨hvalue, -⟩ := Option.filter_eq_some_iff.mp hvalue
  rw [hvalue, Option.filter_some, if_pos (by simpa using hd)]

theorem digits?_append (base value : ℕ) (a b : List Char) :
    digits? base value (a ++ b) = (digits? base value a).bind fun v => digits? base v b := by
  induction a generalizing value with
  | nil => rfl
  | cons c a ih =>
    rw [List.cons_append, digits?, digits?]
    cases digit? base c with
    | none => rfl
    | some d => exact ih _

/-- Digits are read from the highest on, each with the number that those before it write. -/
theorem digits?_toDigits {base : ℕ} (hlow : 1 < base) (hhigh : base ≤ 16) (n : ℕ) :
    digits? base 0 (Nat.toDigits base n) = some n := by
  induction n using Nat.strongRecOn with
  | ind n ih =>
    by_cases hn : n < base
    · rw [Nat.toDigits_of_lt_base hn, digits?, digit?_digitChar hhigh hn]
      simp [digits?]
    · have hmod : n % base < base := Nat.mod_lt n (by omega)
      rw [Nat.toDigits_of_base_le hlow (by omega), digits?_append,
        ih _ (Nat.div_lt_self (by omega) hlow), Option.bind_some, digits?,
        digit?_digitChar hhigh hmod, Option.bind_some, digits?, Nat.div_add_mod']

theorem mem_toDigits {base : ℕ} (hlow : 1 < base) {n : ℕ} {c : Char}
    (hc : c ∈ Nat.toDigits base n) : ∃ d < base, c = d.digitChar := by
  induction n using Nat.strongRecOn with
  | ind n ih =>
    by_cases hn : n < base
    · rw [Nat.toDigits_of_lt_base hn, List.mem_singleton] at hc
      exact ⟨n, hn, hc⟩
    · rw [Nat.toDigits_of_base_le hlow (by omega), List.mem_append, List.mem_singleton] at hc
      rcases hc with hc | hc
      · exact ih _ (Nat.div_lt_self (by omega) hlow) hc
      · exact ⟨n % base, Nat.mod_lt n (by omega), hc⟩

/-- Digits are no blanks, line ends or signs. -/
theorem not_mem_toDigits {base : ℕ} (hlow : 1 < base) (hhigh : base ≤ 16) {c : Char}
    (hc : c < '0') (n : ℕ) : c ∉ Nat.toDigits base n := by
  intro hmem
  obtain ⟨d, hd, rfl⟩ := mem_toDigits hlow hmem
  have hdigit : ∀ d < 16, ¬Nat.digitChar d < '0' := by decide
  exact hdigit d (by omega) hc

theorem word?_toDigits {base : ℕ} (hlow : 1 < base) (hhigh : base ≤ 16) (w : UInt64) :
    word? base (Nat.toDigits base w.toNat) = some w := by
  have hplus := not_mem_toDigits hlow hhigh (c := '+') (by decide) w.toNat
  have hnatural : natural? base (Nat.toDigits base w.toNat) = some w.toNat := by
    unfold natural?
    split
    · next h => rw [h] at hplus; simp at hplus
    · simp [Nat.toDigits_ne_nil, digits?_toDigits hlow hhigh]
  have hlt : w.toNat < Nat.pow 2 64 := w.toNat_lt
  rw [word?, hnatural, Option.filter_some, if_pos (by simpa using hlt), Option.map_some,
    UInt64.ofNat_toNat]

theorem word?_decimal (w : UInt64) : word? 10 (decimal w.toNat) = some w :=
  word?_toDigits (by decide) (by decide) w

theorem word?_hexadecimal (w : UInt64) : word? 16 (hexadecimal w.toNat) = some w :=
  word?_toDigits (by decide) (by decide) w

end Rebuild.Numeral
