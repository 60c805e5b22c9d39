import Mathlib.Data.List.Basic
import Rebuild.Depfile

/-!
# Words of a text that goes on

Reading a word looks one character ahead. Where the last character of a text does not look at what
comes after the text, the two are read one after the other, and a word that the text breaks off in
goes on behind it.
-/

namespace Rebuild.Depfile

variable {text rest tail : List Char} {c d next : Char}

/-- A character means something else if `next` comes after it. -/
def looksAt (c next : Char) : Bool :=
  c = '\\' && (next = ' ' || next = '#' || next = '\n' || next = '\r') ||
    c = '$' && next = '$' || c = '\r' && next = '\n' || c = ':' && endsWord next

/-- The last character of a text means the same if `next` comes after it. -/
def Apart (text : List Char) (next : Char) : Prop :=
  ∀ c ∈ text.getLast?, looksAt c next = false

theorem Apart.of_cons (h : Apart (c :: text) next) : Apart text next := by
  cases text with
  | nil => simp [Apart]
  | cons d text => rwa [Apart, List.getLast?_cons_cons] at h

/-- The last character of a text means the same if `tail` comes after it. A colon looks for the end
of the text as well. -/
def Clear (text : List Char) : (tail : List Char) → Prop
  | [] => text.getLast? ≠ some ':'
  | next :: _ => Apart text next

theorem Clear.of_cons (h : Clear (c :: text) tail) : Clear text tail := by
  cases tail with
  | nil =>
    cases text with
    | nil => simp [Clear]
    | cons d text => rwa [Clear, List.getLast?_cons_cons] at h
  | cons next more => exact Apart.of_cons h

/-! ## One word -/

/-- A character that ends no word and does not look at the next one stands for itself. -/
theorem readWord_cons_cons (hblank : c ≠ ' ' ∧ c ≠ '\t') (hline : c ≠ '\n')
    (h : looksAt c d = false) (text : List Char) :
    readWord (c :: d :: text) = consChar c (readWord (d :: text)) := by
  rw [readWord.eq_def]
  split <;> simp_all [looksAt, endsWord]

/-- So does one at the end, unless it is a colon. -/
theorem readWord_cons (hblank : c ≠ ' ' ∧ c ≠ '\t') (hline : c ≠ '\n') (h : Clear [c] tail) :
    readWord (c :: tail) = consChar c (readWord tail) := by
  cases tail with
  | nil =>
    have hcolon : c ≠ ':' := by simpa [Clear] using h
    rw [readWord.eq_def]
    split <;> simp_all
  | cons next more => exact readWord_cons_cons hblank hline (h c rfl) more

/-- What is read if a word begins with further characters. -/
def prepend (front : List Char) (read : Word × List Char) : Word × List Char :=
  ({ read.1 with text := front ++ read.1.text }, read.2)

/-- A text that something may follow holds the end of a first word, or breaks off in it. -/
inductive FirstWord (text : List Char) : Prop
  | complete (word : Word) (rest : List Char) (ending : word.ending ≠ .eof)
    (shorter : rest.length < text.length)
    (read : ∀ tail, Clear text tail → Clear rest tail ∧
      readWord (text ++ tail) = (word, rest ++ tail))
  | broken (front : List Char) (read : ∀ tail, Clear text tail →
      readWord (text ++ tail) = prepend front (readWord tail))

namespace FirstWord

/-- The text ends a word at once. -/
theorem ends (ending : WordEnd) (hending : ending ≠ .eof) (hshorter : rest.length < text.length)
    (hread : ∀ tail, Clear text tail → Clear rest tail ∧
      readWord (text ++ tail) = (⟨[], ending⟩, rest ++ tail)) : FirstWord text :=
  .complete ⟨[], ending⟩ rest hending hshorter hread

/-- A word has one more character in front. -/
theorem cons (h : FirstWord rest) (hshorter : rest.length < text.length)
    (hread : ∀ tail, Clear text tail → Clear rest tail ∧
      readWord (text ++ tail) = consChar c (readWord (rest ++ tail))) :
    FirstWord text := by
  cases h with
  | complete word rest' hending hshorter' hread' =>
    refine .complete { word with text := c :: word.text } rest' hending
      (Nat.lt_trans hshorter' hshorter) fun tail hclear => ?_
    obtain ⟨hrest, hstep⟩ := hread tail hclear
    obtain ⟨hrest', hword⟩ := hread' tail hrest
    exact ⟨hrest', by rw [hstep, hword, consChar]⟩
  | broken front hread' =>
    refine .broken (c :: front) fun tail hclear => ?_
    obtain ⟨hrest, hstep⟩ := hread tail hclear
    rw [hstep, hread' tail hrest]
    rfl

/-- What the first two characters mean if the first one looks at the second. -/
theorem of_looksAt (h : looksAt c d) (ih : FirstWord text) : FirstWord (c :: d :: text) := by
  have hskip : ∀ {tail}, Clear (c :: d :: text) tail → Clear text tail := fun h => h.of_cons.of_cons
  have hlt : text.length < (c :: d :: text).length := by
    simp only [List.length_cons]
    omega
  simp only [looksAt, Bool.or_eq_true, Bool.and_eq_true, decide_eq_true_eq] at h
  rcases h with ((⟨rfl, ((rfl | rfl) | rfl) | rfl⟩ | ⟨rfl, rfl⟩) | ⟨rfl, rfl⟩) | ⟨rfl, hend⟩
  · exact ih.cons hlt fun tail h => ⟨hskip h, rfl⟩
  · exact ih.cons hlt fun tail h => ⟨hskip h, rfl⟩
  · exact .ends .blank (by simp) hlt fun tail h => ⟨hskip h, rfl⟩
  · cases text with
    | nil =>
      refine .ends .blank (by simp) hlt fun tail h => ⟨hskip h, ?_⟩
      cases tail with
      | nil => rfl
      | cons next more =>
        have hnext : next ≠ '\n' := by
          rintro rfl
          simpa [looksAt] using h '\r' rfl
        simp [readWord, hnext]
    | cons e text =>
      by_cases he : e = '\n'
      · subst he
        have hlt : text.length < ('\\' :: '\r' :: '\n' :: text).length := by
          simp only [List.length_cons]
          omega
        exact .ends .blank (by simp) hlt fun tail h => ⟨(hskip h).of_cons, rfl⟩
      · exact .ends .blank (by simp) hlt fun tail h => ⟨hskip h, by simp [readWord, he]⟩
  · exact ih.cons hlt fun tail h => ⟨hskip h, rfl⟩
  · exact .ends .newline (by simp) hlt fun tail h => ⟨hskip h, rfl⟩
  · exact .ends .colon (by simp) (Nat.lt_succ_self _) fun tail h =>
      ⟨h.of_cons, by simp [readWord, hend]⟩

/-- A character that ends a word whatever comes after it. -/
theorem of_end (h : c = ' ' ∨ c = '\t' ∨ c = '\n') (text : List Char) : FirstWord (c :: text) := by
  rcases h with rfl | rfl | rfl
  · exact .ends .blank (by simp) (Nat.lt_succ_self _) fun _ h => ⟨h.of_cons, rfl⟩
  · exact .ends .blank (by simp) (Nat.lt_succ_self _) fun _ h => ⟨h.of_cons, rfl⟩
  · exact .ends .newline (by simp) (Nat.lt_succ_self _) fun _ h => ⟨h.of_cons, rfl⟩

/-- Every text begins with a word. -/
theorem all : (text : List Char) → FirstWord text
  | [] => .broken [] fun _ _ => rfl
  | [c] => by
    by_cases hend : c = ' ' ∨ c = '\t' ∨ c = '\n'
    · exact of_end hend []
    · simp only [not_or] at hend
      exact .broken [c] fun tail h => readWord_cons ⟨hend.1, hend.2.1⟩ hend.2.2 h
  | c :: d :: text => by
    by_cases hend : c = ' ' ∨ c = '\t' ∨ c = '\n'
    · exact of_end hend _
    · by_cases hlook : looksAt c d
      · exact of_looksAt hlook (all text)
      · simp only [not_or] at hend
        refine (all (d :: text)).cons (c := c) (Nat.lt_succ_self _) fun tail h => ⟨h.of_cons, ?_⟩
        exact readWord_cons_cons ⟨hend.1, hend.2.1⟩ hend.2.2 (Bool.eq_false_iff.mpr hlook) _

end FirstWord

/-! ## All words -/

theorem words_of_eq {word : Word} (h : readWord text = (word, rest)) (hend : word.ending ≠ .eof) :
    words text = word :: words rest := by
  rw [words, h, dif_neg hend]

theorem words_nil : words [] = [⟨[], .eof⟩] := by
  rw [words, readWord]
  rfl

/-- A colon at the end of a word ends the outputs. -/
theorem words_colon (h : endsWord c) (text : List Char) :
    words (':' :: c :: text) = ⟨[], .colon⟩ :: words (c :: text) :=
  words_of_eq (by simp [readWord, h]) (by simp)

/-- Words that begin with further characters. -/
def prependFirst (front : List Char) : List Word → List Word
  | [] => []
  | word :: rest => { word with text := front ++ word.text } :: rest

theorem words_of_prepend {front text' : List Char}
    (h : readWord text' = prepend front (readWord text)) :
    words text' = prependFirst front (words text) := by
  rw [words, words.eq_def text, h]
  unfold prepend
  split <;> rfl

/-- A text gives words of its own, and breaks off in a last one. -/
theorem words_split (text : List Char) : ∃ before front, ∀ tail, Clear text tail →
    words (text ++ tail) = before ++ prependFirst front (words tail) := by
  induction hlen : text.length using Nat.strongRecOn generalizing text with
  | ind n ih =>
    cases FirstWord.all text with
    | complete word rest hend hshorter hread =>
      obtain ⟨before, front, hrest⟩ := ih rest.length (hlen ▸ hshorter) rest rfl
      refine ⟨word :: before, front, fun tail h => ?_⟩
      obtain ⟨hclear, hword⟩ := hread tail h
      rw [words_of_eq hword hend, hrest tail hclear, List.cons_append]
    | broken front hread =>
      exact ⟨[], front, fun tail h => words_of_prepend (hread tail h)⟩

theorem words_append (text : List Char) : ∃ before front, ∀ next more, Apart text next →
    words (text ++ next :: more) = before ++ prependFirst front (words (next :: more)) := by
  obtain ⟨before, front, hread⟩ := words_split text
  exact ⟨before, front, fun next more h => hread (next :: more) h⟩

/-- Nothing looks at a colon. -/
theorem apart_colon (before : List Char) : Apart before ':' := fun d _ => by
  simp [looksAt, endsWord]

end Rebuild.Depfile
