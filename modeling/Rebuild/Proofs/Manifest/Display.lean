import Mathlib.Data.List.Chain
import Rebuild.Proofs.Manifest.Reading

/-!
# Templates that are displayed

A template is displayed as a value that means it: literals with the dollar sign doubled, references
in braces. Read as the rest of a line, what is displayed gives the template back, if the template is
in normal form and can be written at all. That takes names that are identifiers, literals that end
no line, and no space at the front, since spaces in front of a value are passed over.
-/

namespace Rebuild

open Manifest

/-- Whether a fragment is literal text. -/
def Fragment.isLiteral : Fragment → Bool
  | .literal _ => true
  | .var _ => false

namespace Template

/-- No literal is empty, and no two literals stand side by side. -/
structure IsNormal (t : Template) : Prop where
  ne_empty : .literal "" ∉ t.fragments
  apart : t.fragments.IsChain fun a b => ¬(a.isLiteral = true ∧ b.isLiteral = true)

/-- A template that can be written as a value to the end of a line. -/
structure IsWritable (t : Template) : Prop where
  name : ∀ name, .var name ∈ t.fragments → IsWord name
  literal : ∀ text, .literal text ∈ t.fragments → ∀ c ∈ text.toList, isLineEnd c = false
  front : ∀ text, t.fragments.head? = some (.literal text) → text.toList.head? ≠ some ' '

/-! ## Normal forms -/

/-- Text is not joined to a reference. -/
theorem appendLiteral_eq {text : String} {fragments : List Fragment}
    (h : ∀ fragment ∈ fragments.getLast?, fragment.isLiteral = false) :
    appendLiteral text fragments = fragments ++ [.literal text] := by
  induction fragments using appendLiteral.induct with
  | case1 => rfl
  | case2 last => cases h _ rfl
  | case3 fragment rest hlast ih =>
    rw [appendLiteral.eq_3 _ _ _ hlast]
    cases rest with
    | nil => rfl
    | cons next more =>
      rw [ih (by simpa using h)]
      rfl

theorem foldl_push {before fragments : List Fragment} (h : IsNormal ⟨before ++ fragments⟩) :
    fragments.foldl push ⟨before⟩ = ⟨before ++ fragments⟩ := by
  induction fragments generalizing before with
  | nil => rw [List.append_nil]; rfl
  | cons fragment rest ih =>
    have hpush : push ⟨before⟩ fragment = ⟨before ++ [fragment]⟩ := by
      cases fragment with
      | var name => rfl
      | literal text =>
        have hne : text ≠ "" := by
          rintro rfl
          exact h.ne_empty (by simp)
        rw [push, pushLiteral, if_neg hne, appendLiteral_eq]
        intro last hlast
        obtain ⟨-, -, hapart⟩ := List.isChain_append.mp h.apart
        exact Bool.eq_false_iff.mpr fun hliteral => hapart last hlast _ rfl ⟨hliteral, rfl⟩
    have hsplit : before ++ fragment :: rest = before ++ [fragment] ++ rest := by simp
    rw [hsplit] at h ⊢
    rw [List.foldl_cons, hpush, ih h]

/-- A template in normal form is made of its fragments. -/
theorem ofFragments_eq {t : Template} (h : t.IsNormal) : ofFragments t.fragments = t :=
  @foldl_push [] t.fragments h

/-! ## Fragments as pieces -/

/-- A fragment as it is displayed, in pieces. -/
def fragmentPieces : Fragment → List Piece
  | .literal text => charPieces (· = '$') text.toList
  | .var name => [.braced name.toList]

/-- A template as it is displayed, in pieces. -/
def pieces (t : Template) : List Piece := t.fragments.flatMap fragmentPieces

theorem textOf_flatMap (fragments : List Fragment) : textOf (fragments.flatMap fragmentPieces) =
    fragments.flatMap fun fragment => textOf (fragmentPieces fragment) := by
  rw [textOf, List.flatMap_assoc]
  rfl

theorem toList_display (t : Template) : t.display.toList = textOf t.pieces := by
  rw [display, String.toList_join, List.flatMap_map, pieces, textOf_flatMap]
  refine List.flatMap_congr fun fragment _ => ?_
  cases fragment with
  | literal text =>
    change (escapeDollars text).toList = _
    rw [escapeDollars, String.toList_ofList, fragmentPieces, textOf_charPieces]
    refine List.flatMap_congr fun c _ => ?_
    by_cases hc : c = '$'
    all_goals simp [hc]
  | var name => simp [fragmentPieces, Piece.text]

/-- The pieces of a template mean the template. -/
theorem foldl_pieces (fragments : List Fragment) (t : Template) :
    (fragments.flatMap fragmentPieces).foldl Piece.add t = fragments.foldl push t := by
  induction fragments generalizing t with
  | nil => rfl
  | cons fragment rest ih =>
    have hfragment : (fragmentPieces fragment).foldl Piece.add t = t.push fragment := by
      cases fragment with
      | literal text =>
        rw [fragmentPieces, foldl_add_charPieces, String.ofList_toList]
        rfl
      | var name => simp [fragmentPieces, Piece.add, push]
    rw [List.flatMap_cons, List.foldl_append, hfragment, ih, List.foldl_cons]

theorem fit_pieces {t : Template} (h : t.IsWritable) (after : List Char) :
    Fit .line after t.pieces := by
  refine fit_flatMap fun fragment hmem after => ?_
  cases fragment with
  | literal text =>
    refine fit_charPieces (fun c _ hc => ?_) fun c hmem' hc => ?_
    · obtain rfl : c = '$' := by simpa using hc
      rfl
    · have hend := h.literal text hmem c hmem'
      simpa [ValueMode.isPlain, hend] using hc
  | var name =>
    have hname := h.name name hmem
    exact ⟨⟨by simpa using hname.ne_empty, hname.ident⟩, trivial⟩

/-- Nothing at the front of a template that can be written is passed over. -/
theorem front_display {t : Template} (hnormal : t.IsNormal) (hwritable : t.IsWritable)
    {stop : List Char} (hstop : ∀ c ∈ stop.head?, isSpace c = false) :
    ∀ c ∈ (t.display.toList ++ stop).head?, isSpace c = false := by
  rw [toList_display]
  obtain ⟨fragments⟩ := t
  cases fragments with
  | nil => exact hstop
  | cons fragment rest =>
    cases fragment with
    | var name => simp [pieces, fragmentPieces, Piece.text, isSpace]
    | literal text =>
      have hne : text.toList ≠ [] := by
        rw [ne_eq, String.toList_eq_nil_iff]
        rintro rfl
        exact hnormal.ne_empty List.mem_cons_self
      obtain ⟨c, more, htext⟩ := List.exists_cons_of_ne_nil hne
      have hspace : c ≠ ' ' := by simpa [htext] using hwritable.front text rfl
      by_cases hdollar : c = '$'
      · simp [pieces, fragmentPieces, htext, charPieces_cons, hdollar, Piece.text, isSpace]
      · simp [pieces, fragmentPieces, htext, charPieces_cons, hdollar, Piece.text, isSpace, hspace]

end Template

namespace Cursor

variable {text rest : List Char}

theorem EndsWith.head? (h : EndsWith text rest) : ∀ ch ∈ text.head?, isLineEnd ch = true := by
  obtain hend | ⟨rfl, -⟩ := h
  · obtain ⟨ch, v, -, rfl, -, hch⟩ := hend.front
    simpa using hch
  · simp

theorem EndsWith.rest_skipLineEnd {c : Cursor} (h : EndsWith text rest) (hc : c.At text) :
    c.skipLineEnd.rest = rest := by
  obtain hend | ⟨rfl, rfl⟩ := h
  · rw [← hc.rest] at hend
    obtain ⟨width, hskip, -⟩ := skipLineEnd_of_sameEnd hend
    rw [hskip]
    rfl
  · simp [skipLineEnd, hc.rest]

theorem EndsWith.endsValue (h : EndsWith text rest) : EndsValue .line text := by
  intro ch hch
  have hend := h.head? ch hch
  refine ⟨by simp [ValueMode.isPlain, hend], ?_⟩
  rintro rfl
  exact absurd hend (by decide)

end Cursor

namespace Lexer

/-- A template that is displayed is read back, wherever a lexer stands: in front of the end of the
text or of a line, the rest of the line is exactly what was displayed, and the line end is taken
with it. -/
theorem value_display {t : Template} {stop rest : List Char} {l : Lexer} (hnormal : t.IsNormal)
    (hwritable : t.IsWritable) (hstop : Cursor.EndsWith stop rest)
    (hl : l.cursor.rest = t.display.toList ++ stop) :
    ∃ c, value .line l = .ok t { l with cursor := c } ∧ c.rest = rest ∧
      c.extent = l.cursor.extent := by
  have hfront : ∀ ch ∈ (t.display.toList ++ stop).head?, isSpace ch = false := by
    refine Template.front_display hnormal hwritable fun ch hch => ?_
    have hend := hstop.head? ch hch
    refine Bool.eq_false_iff.mpr fun hspace => ?_
    simp [(plain_isSpace false ch hspace).1] at hend
  have hat : l.cursor.inLine.At (t.display.toList ++ stop) := ⟨hl, rfl⟩
  have hskip := hat.skipWhile_eq hfront
  rw [Template.toList_display] at hat
  obtain ⟨d, hd, hpieces⟩ := hat.readPieces (Template.fit_pieces hwritable stop)
  have hvalue : l.cursor.value .line = .ok t d.skipLineEnd := by
    have hmeans : t.pieces.foldl Piece.add .empty = t :=
      (Template.foldl_pieces t.fragments .empty).trans (Template.ofFragments_eq hnormal)
    rw [Cursor.value, hskip, hpieces, hmeans,
      Cursor.pieces_of_endsValue (hd.rest ▸ hstop.endsValue)]
  exact ⟨d.skipLineEnd, by rw [value, withCursor, hvalue], hstop.rest_skipLineEnd hd,
    Cursor.extent_value hvalue⟩

/-- A command with a `$` in front of a reference, with braces, and with a character that is not
ASCII. -/
def dollarsAndBraces : Template :=
  ⟨[.literal "cc \x7bü\x7d $", .var "in.c", .literal " -o"]⟩

theorem value_display_dollarsAndBraces :
    dollarsAndBraces.display = "cc \x7bü\x7d $$$\x7bin.c\x7d -o" ∧
      ∃ c, value .line (start "cc \x7bü\x7d $$$\x7bin.c\x7d -o\r\nrest".toList) =
          .ok dollarsAndBraces { start "cc \x7bü\x7d $$$\x7bin.c\x7d -o\r\nrest".toList with
            cursor := c } ∧ c.rest = "rest".toList := by
  have hnormal : dollarsAndBraces.IsNormal := ⟨by decide, by decide⟩
  have hwritable : dollarsAndBraces.IsWritable := by
    refine ⟨fun name hname => ?_, fun text htext => ?_, fun text htext => ?_⟩
    · obtain rfl : name = "in.c" := by simpa [dollarsAndBraces] using hname
      exact ⟨by decide, by simp [isIdentChar]⟩
    · obtain rfl | rfl : text = "cc \x7bü\x7d $" ∨ text = " -o" := by
        simpa [dollarsAndBraces] using htext
      all_goals simp [isLineEnd]
    · obtain rfl : text = "cc \x7bü\x7d $" := by simpa [dollarsAndBraces] using htext.symm
      decide
  have hdisplay : dollarsAndBraces.display = "cc \x7bü\x7d $$$\x7bin.c\x7d -o" := by decide
  have hstop : Cursor.EndsWith "\r\nrest".toList "rest".toList := .inl (.crlf _ _)
  have htext : (start "cc \x7bü\x7d $$$\x7bin.c\x7d -o\r\nrest".toList).cursor.rest =
      dollarsAndBraces.display.toList ++ "\r\nrest".toList := by
    rw [hdisplay]
    decide
  obtain ⟨c, hvalue, hrest, -⟩ := value_display hnormal hwritable hstop htext
  exact ⟨hdisplay, c, hvalue, hrest⟩

end Lexer

end Rebuild
