import Mathlib
import Rebuild.Proofs.Depfile.Words

/-!
# Lines that go on

A blank between words may be a line end after a backslash just as well: only a colon looks at the
blank behind it, and does not take the backslash for one.
-/

namespace Rebuild.Depfile

variable {c : Char}

/-- A blank that ends a word: a tab, or a space without a backslash in front of it. -/
inductive Separates (before : List Char) : Char → Prop
  | tab : Separates before '\t'
  | space (unescaped : before.getLast? ≠ some '\\') : Separates before ' '

/-- What a line ends with. -/
inductive IsLineEnd : List Char → Prop
  | lf : IsLineEnd ['\n']
  | crlf : IsLineEnd ['\r', '\n']

theorem words_continued {lineEnd : List Char} (h : IsLineEnd lineEnd) (text : List Char) :
    words ('\\' :: lineEnd ++ text) = ⟨[], .blank⟩ :: words text := by
  cases h <;> exact words_of_eq rfl (by simp)

theorem Separates.words_cons {before : List Char} (h : Separates before c) (text : List Char) :
    words (c :: text) = ⟨[], .blank⟩ :: words text := by
  cases h <;> exact words_of_eq rfl (by simp)

/-- Nothing but a colon looks at a blank that ends a word. -/
theorem Separates.apart {before : List Char} (h : Separates before c)
    (hcolon : before.getLast? ≠ some ':') : Apart before c := by
  intro d hd
  have hlast : before.getLast? = some d := hd
  have hne : d ≠ ':' := fun heq => hcolon (heq ▸ hlast)
  cases h with
  | tab => simp [looksAt, hne]
  | space hplain =>
    have hback : d ≠ '\\' := fun heq => hplain (heq ▸ hlast)
    simp [looksAt, hne, hback]

/-- Nothing looks at a backslash. -/
theorem apart_backslash (before : List Char) : Apart before '\\' := fun d _ => by
  simp [looksAt, endsWord]

/-- A colon in front of a blank ends the outputs. -/
theorem Separates.words_colon {before : List Char} (h : Separates before c) (text : List Char) :
    words (':' :: c :: text) = ⟨[], .colon⟩ :: words (c :: text) := by
  cases h <;> exact words_of_eq rfl (by simp)

/-- A colon in front of a backslash belongs to the word. -/
theorem words_colon_backslash (text : List Char) :
    words (':' :: '\\' :: text) = prependFirst [':'] (words ('\\' :: text)) :=
  words_of_prepend (readWord_cons_cons (by simp) (by simp) (by simp [looksAt, endsWord]) text)

/-- A line that goes on is read like a blank that ends a word: a dependency file in which one stands
for the other gives the same paths in the same order, or is refused like the other. The one
exception is a blank behind a colon, which ends outputs because of the blank: with a backslash
behind it, it is the last character of the word in front. -/
theorem parse?_continued {before lineEnd : List Char} (hblank : Separates before c)
    (hline : IsLineEnd lineEnd) (after : List Char) :
    (before.getLast? ≠ some ':' →
      parse? (before ++ '\\' :: lineEnd ++ after) = parse? (before ++ c :: after)) ∧
    ∀ front, before = front ++ [':'] → ∃ earlier text,
      words (before ++ c :: after) =
        earlier ++ ⟨text, .colon⟩ :: ⟨[], .blank⟩ :: words after ∧
      words (before ++ '\\' :: lineEnd ++ after) =
        earlier ++ ⟨text ++ [':'], .blank⟩ :: words after := by
  have hcontinued : words ('\\' :: (lineEnd ++ after)) = ⟨[], .blank⟩ :: words after :=
    words_continued hline after
  have hseparated := hblank.words_cons after
  rw [List.append_assoc, List.cons_append]
  constructor
  · intro hcolon
    obtain ⟨earlier, text, hread⟩ := words_append before
    rw [parse?, parse?, hread _ _ (apart_backslash before), hread _ _ (hblank.apart hcolon),
      hseparated, hcontinued]
  · rintro front rfl
    obtain ⟨earlier, text, hread⟩ := words_append front
    have hfront : ∀ more, words (front ++ [':'] ++ more) =
        earlier ++ prependFirst text (words (':' :: more)) := fun more => by
      rw [List.append_assoc]
      exact hread ':' more (apart_colon front)
    refine ⟨earlier, text, ?_, ?_⟩
    · rw [hfront, hblank.words_colon, hseparated, prependFirst, List.append_nil]
    · rw [hfront, words_colon_backslash, hcontinued, prependFirst, prependFirst, List.append_nil]

/-- The second dependency is on a line of its own, behind a dollar sign that is not doubled. -/
theorem parse?_continued_header : Separates "a\\ b.o: c:/x$".toList ' ' ∧
    "a\\ b.o: c:/x$".toList.getLast? ≠ some ':' ∧
    parse? "a\\ b.o: c:/x$\\\r\nd.h\n".toList = some ⟨["a b.o"], ["c:/x$", "d.h"]⟩ := by
  have hblank : Separates "a\\ b.o: c:/x$".toList ' ' := .space (by decide)
  have hcolon : "a\\ b.o: c:/x$".toList.getLast? ≠ some ':' := by decide
  have hread : parse? "a\\ b.o: c:/x$ d.h\n".toList = some ⟨["a b.o"], ["c:/x$", "d.h"]⟩ := by cbv
  exact ⟨hblank, hcolon, ((parse?_continued hblank .crlf "d.h\n".toList).1 hcolon).trans hread⟩

/-- The colon ends no outputs, so the record has none. -/
example : parse? "a.o:\\\n a.c\n".toList = none := by cbv

end Rebuild.Depfile
