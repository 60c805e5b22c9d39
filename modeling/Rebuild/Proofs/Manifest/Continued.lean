import Mathlib
import Rebuild.Proofs.Manifest.Clauses
import Rebuild.Proofs.Manifest.Pieces

/-!
# Values that go on in the next line

A value may be broken between any two of its pieces, also before the first one and after the last
one: a `$`, a line end and the blanks after it add nothing to the value, and it ends where it did.
Only in front of a blank a line cannot be broken, since the blank would be passed over with those at
the start of the next line.
-/

namespace Rebuild

open Manifest

namespace Manifest

/-- The text begins with spaces and then with these pieces of a value, behind which `after` is
left. -/
structure ValueUpTo (mode : ValueMode) (text : List Char) (gap : Nat) (pieces : List Piece)
    (after : List Char) : Prop where
  text_eq : text = spaces gap ++ (textOf pieces ++ after)
  front : ∀ c ∈ (textOf pieces ++ after).head?, isSpace c = false
  fit : Fit mode after pieces

theorem SameLine.eq {escapes escaped : Bool} {text text' : List Char}
    (h : SameLine escapes Eq escaped text text') : text = text' := by
  have hend {t t' u u' : List Char} (h : SameEnd t t' u u') (hu : u = u') : t = t' := by
    cases h
    all_goals rw [hu]
  induction h with
  | ended _ => rfl
  | lineEnd h hu => exact hend h hu
  | goesOn h _ ih => exact hend h ih
  | char _ _ ih | escaped _ _ ih => rw [ih]

/-- The spaces in front of a text are those that begin it. -/
theorem spaces_takeWhile (text : List Char) :
    spaces (text.takeWhile isSpace).length = text.takeWhile isSpace := by
  have hall : ∀ c ∈ text.takeWhile isSpace, c = ' ' := fun c hc => by
    simpa [isSpace] using List.all_eq_true.mp List.all_takeWhile c hc
  exact (List.eq_replicate_of_mem hall).symm

end Manifest

namespace Cursor

variable {c d c' : Cursor} {t u : Template} {mode : ValueMode} {gap : Nat} {ps : List Piece}
  {after : List Char}

/-- The pieces that begin a value are read first. -/
theorem value_of_upTo (h : ValueUpTo mode c.rest gap ps after) :
    ∃ d, d.At after ∧ c.value mode = pieces mode d (ps.foldl Piece.add .empty) := by
  have hat : c.inLine.At (spaces gap ++ (textOf ps ++ after)) := ⟨h.text_eq, rfl⟩
  have hstart := (hat.skipWhile (by simp [spaces, isSpace]) h.front).2
  obtain ⟨d, hd, hpieces⟩ := hstart.readPieces h.fit
  exact ⟨d, hd, hpieces _⟩

/-- Every value that can be read is made of pieces. -/
theorem exists_upTo (h : c.value mode = .ok t d) : ∃ gap ps stop,
    ValueUpTo mode c.rest gap ps stop ∧ EndsValue mode stop ∧ t = ps.foldl Piece.add .empty := by
  obtain ⟨ps, stop, hrest, hfit, hstop, ht⟩ := exists_pieces h
  refine ⟨(c.rest.takeWhile isSpace).length, ps, stop, ⟨?_, fun ch hch => ?_, hfit⟩, hstop, ht⟩
  · rw [spaces_takeWhile, ← hrest]
    exact List.takeWhile_append_dropWhile.symm
  · rw [← hrest] at hch
    exact eq_false_of_head?_dropWhile hch

/-- From cursors that have the same text left, the same is read. -/
theorem At.pieces_congr (hc : c.At after) (hd : d.At after) (hread : pieces mode c t = .ok u c') :
    ∃ d', pieces mode d t = .ok u d' ∧ d'.rest = c'.rest := by
  have hshares : SharesLine true Eq c d :=
    ⟨hc.inside, hd.inside, by rw [hc.rest, hd.rest]; exact .refl (fun _ => rfl) ..⟩
  obtain ⟨d', hd', hafter⟩ := hshares.pieces hread
  refine ⟨d', hd', ?_⟩
  cases mode with
  | path => exact hafter.rest.eq.symm
  | line =>
    obtain hstart | hfinished := hafter
    · exact hstart.rest.symm
    · rw [hfinished.nil, hfinished.nil']

end Cursor

namespace Lexer

/-- The lexer at the same position with another text before it. -/
def withText (text : List Char) (l : Lexer) : Lexer :=
  { l with cursor := { l.cursor with rest := text } }

/-- A value that can be read is made of pieces, and may be broken between any two of them, as well
as at its start and at its end, but not in front of a blank: then the same template is read, and the
same text is left, behind the bytes that were put in. -/
theorem value_continued {mode : ValueMode} {l l' : Lexer} {t : Template}
    (hread : value mode l = .ok t l') :
    (∃ gap pieces stop, ValueUpTo mode l.cursor.rest gap pieces stop ∧ EndsValue mode stop ∧
      t = pieces.foldl Piece.add .empty) ∧
    ∀ gap pieces after lineEnd blanks, ValueUpTo mode l.cursor.rest gap pieces after →
      (∀ c ∈ after.head?, isSpaceOrTab c = false) → IsLineEnd lineEnd (blanks ++ after) →
      (∀ c ∈ blanks, isSpaceOrTab c = true) →
        ∃ m, value mode (l.withText
            (spaces gap ++ (textOf pieces ++ ('$' :: (lineEnd ++ blanks) ++ after)))) = .ok t m ∧
          m.cursor.rest = l'.cursor.rest ∧
          m.cursor.offset = l'.cursor.offset + Utf8.size ('$' :: (lineEnd ++ blanks)) := by
  have hvalue := withCursor_eq_ok hread
  refine ⟨Cursor.exists_upTo hvalue,
    fun gap pieces after lineEnd blanks hupTo hafter hend hblanks => ?_⟩
  generalize hm : l.withText
    (spaces gap ++ (textOf pieces ++ ('$' :: (lineEnd ++ blanks) ++ after))) = m
  have htext : m.cursor.rest =
      spaces gap ++ (textOf (pieces ++ [.goesOn lineEnd blanks]) ++ after) := by
    rw [← hm]
    simp [withText, Piece.text]
  -- the line end is one more piece, and the other pieces fit in front of it
  have hupTo' : ValueUpTo mode m.cursor.rest gap (pieces ++ [.goesOn lineEnd blanks]) after := by
    refine ⟨htext, ?_, fit_append.mpr ⟨hupTo.fit.of_head? (.inr rfl), ⟨hend, hblanks, hafter⟩,
      trivial⟩⟩
    have hfront := hupTo.front
    rw [textOf_append, List.append_assoc]
    cases hpieces : textOf pieces with
    | nil => simp [Piece.text, isSpace]
    | cons c more => simpa [hpieces] using hfront
  obtain ⟨d, hd, hpieces⟩ := Cursor.value_of_upTo hupTo
  obtain ⟨d', hd', hpieces'⟩ := Cursor.value_of_upTo hupTo'
  rw [hpieces] at hvalue
  obtain ⟨c, hc, hrest⟩ := hd.pieces_congr hd' hvalue
  rw [List.foldl_append] at hpieces'
  have hbroken := hpieces'.trans hc
  refine ⟨{ m with cursor := c }, by rw [value, withCursor, hbroken], hrest, ?_⟩
  have hextent := Cursor.extent_value (withCursor_eq_ok hread)
  have hextent' := Cursor.extent_value hbroken
  have hoffset : m.cursor.offset = l.cursor.offset := by rw [← hm]; rfl
  simp only [Cursor.extent, htext, hupTo.text_eq, hrest, hoffset, textOf_append, textOf_cons,
    textOf_nil, Piece.text, Utf8.size_append, Utf8.size_cons, Utf8.size_nil] at hextent hextent' ⊢
  omega

/-- A value that is broken in front of a reference. -/
theorem value_continued_reference :
    (∃ l', value .line (start " cd$\x7bfoo\x7dd\n".toList) =
      .ok ⟨[.literal "cd", .var "foo", .literal "d"]⟩ l') ∧
    ∃ m, value .line ((start " cd$\x7bfoo\x7dd\n".toList).withText
        " cd$\r\n \t$\x7bfoo\x7dd\n".toList) =
      .ok ⟨[.literal "cd", .var "foo", .literal "d"]⟩ m ∧ m.cursor.rest = [] ∧
        m.cursor.offset = 16 := by
  have hread : value .line (start " cd$\x7bfoo\x7dd\n".toList) =
      .ok ⟨[.literal "cd", .var "foo", .literal "d"]⟩
        ⟨⟨[], 11, 2, 11, true⟩, .start " cd$\x7bfoo\x7dd\n".toList⟩ := by cbv
  have hupTo : ValueUpTo .line " cd$\x7bfoo\x7dd\n".toList 1 [.plain 'c', .plain 'd']
      "$\x7bfoo\x7dd\n".toList :=
    ⟨by decide, by simp [Piece.text, isSpace], rfl, rfl, trivial⟩
  obtain ⟨m, hm, hrest, hoffset⟩ := (value_continued hread).2 1 [.plain 'c', .plain 'd']
    "$\x7bfoo\x7dd\n".toList ['\r', '\n'] [' ', '\t'] hupTo (by simp [isSpaceOrTab])
    (.inr (.inl rfl)) (by simp [isSpaceOrTab])
  exact ⟨⟨_, hread⟩, m, hm, hrest, hoffset⟩

end Lexer

end Rebuild
