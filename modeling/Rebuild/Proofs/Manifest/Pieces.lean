import Rebuild.Proofs.Manifest.Endings
import Rebuild.Proofs.Manifest.Writing

/-!
# What values are made of

A value is a sequence of pieces: characters that stand for themselves, escaped ones, references with
or without braces, and line ends over which the value goes on. A piece is read as a whole if what
follows could not belong to it. Reading a value is taking piece after piece up to a place at which
the value ends, and every value that can be read is made of pieces.
-/

namespace Rebuild

open Manifest

namespace Template

@[simp] theorem appendLiteral_appendLiteral (a b : String) (fragments : List Fragment) :
    appendLiteral b (appendLiteral a fragments) = appendLiteral (a ++ b) fragments := by
  induction fragments using appendLiteral.induct with
  | case1 => rfl
  | case2 last => simp [appendLiteral, String.append_assoc]
  | case3 fragment rest hlast ih =>
    rw [appendLiteral.eq_3 _ _ _ hlast, appendLiteral.eq_3 _ _ _ hlast, ← ih]
    -- the rest is still not empty, so the text goes to its end
    cases hrest : appendLiteral a rest with
    | nil => exact absurd hrest (appendLiteral_ne_nil a rest)
    | cons next more => cases fragment <;> rfl

theorem pushLiteral_pushLiteral (t : Template) (a b : String) :
    (t.pushLiteral a).pushLiteral b = t.pushLiteral (a ++ b) := by
  by_cases ha : a = ""
  · simp [pushLiteral, ha]
  by_cases hb : b = ""
  · simp [pushLiteral, hb]
  have hab : a ++ b ≠ "" := by simp [ha]
  rw [pushLiteral, if_neg hb, pushLiteral, if_neg ha, pushLiteral, if_neg hab]
  exact congrArg Template.mk (appendLiteral_appendLiteral a b t.fragments)

end Template

namespace Manifest

/-- A line end. A carriage return is one by itself only if no line feed follows. -/
def IsLineEnd (lineEnd rest : List Char) : Prop :=
  lineEnd = ['\n'] ∨ lineEnd = ['\r', '\n'] ∨ lineEnd = ['\r'] ∧ rest.head? ≠ some '\n'

/-- A piece of a value. -/
inductive Piece where
  | plain (c : Char)
  | escaped (c : Char)
  | braced (name : List Char)
  | simple (name : List Char)
  | goesOn (lineEnd blanks : List Char)

namespace Piece

/-- A piece as it is written. -/
def text : Piece → List Char
  | plain c => [c]
  | escaped c => ['$', c]
  | braced name => '$' :: '\x7b' :: (name ++ ['\x7d'])
  | simple name => '$' :: name
  | goesOn lineEnd blanks => '$' :: (lineEnd ++ blanks)

/-- The piece is written as it should be, and nothing of what follows belongs to it. -/
def Fits (mode : ValueMode) (after : List Char) : Piece → Prop
  | plain c => mode.isPlain c = true
  | escaped c => isEscaped c = true
  | braced name => name ≠ [] ∧ ∀ c ∈ name, isIdentChar c = true
  | simple name => name ≠ [] ∧ (∀ c ∈ name, isSimpleVarChar c = true) ∧
      ∀ c ∈ after.head?, isSimpleVarChar c = false
  | goesOn lineEnd blanks => IsLineEnd lineEnd (blanks ++ after) ∧
      (∀ c ∈ blanks, isSpaceOrTab c = true) ∧ ∀ c ∈ after.head?, isSpaceOrTab c = false

/-- The template with the meaning of a piece at its end. -/
def add (t : Template) : Piece → Template
  | plain c | escaped c => t.pushLiteral (String.ofList [c])
  | braced name | simple name => t.pushVar (String.ofList name)
  | goesOn _ _ => t

end Piece

/-- Pieces as they are written. -/
def textOf (pieces : List Piece) : List Char := pieces.flatMap Piece.text

/-- Each of the pieces fits in front of the next one, and the last one in front of `after`. -/
def Fit (mode : ValueMode) (after : List Char) : List Piece → Prop
  | [] => True
  | piece :: more => piece.Fits mode (textOf more ++ after) ∧ Fit mode after more

/-- A text in pieces, of which those that satisfy `escapes` are escaped. -/
def charPieces (escapes : Char → Bool) (text : List Char) : List Piece :=
  text.map fun c => if escapes c then .escaped c else .plain c

/-- A value ends in front of the text. -/
def EndsValue (mode : ValueMode) (text : List Char) : Prop :=
  ∀ c ∈ text.head?, mode.isPlain c = false ∧ c ≠ '$'

variable {mode : ValueMode} {piece : Piece} {pieces more : List Piece}
  {text rest after after' lineEnd : List Char}

@[simp] theorem textOf_nil : textOf [] = [] := rfl

@[simp] theorem textOf_cons (piece : Piece) (more : List Piece) :
    textOf (piece :: more) = piece.text ++ textOf more := rfl

@[simp] theorem textOf_append (pieces more : List Piece) :
    textOf (pieces ++ more) = textOf pieces ++ textOf more := List.flatMap_append

theorem fit_append : Fit mode after (pieces ++ more) ↔
    Fit mode (textOf more ++ after) pieces ∧ Fit mode after more := by
  induction pieces with
  | nil => simp [Fit]
  | cons piece pieces ih => simp [Fit, ih, and_assoc]

/-- Stretches of pieces fit if it does not matter what follows them. -/
theorem fit_flatMap {α : Type} {f : α → List Piece} {xs : List α}
    (h : ∀ x ∈ xs, ∀ after, Fit mode after (f x)) : Fit mode after (xs.flatMap f) := by
  induction xs with
  | nil => trivial
  | cons x xs ih =>
    obtain ⟨hx, hxs⟩ := List.forall_mem_cons.mp h
    rw [List.flatMap_cons]
    exact fit_append.mpr ⟨hx _, ih hxs⟩

theorem IsLineEnd.sameEnd (h : IsLineEnd lineEnd rest) :
    SameEnd (lineEnd ++ rest) (lineEnd ++ rest) rest rest := by
  obtain rfl | rfl | ⟨rfl, hrest⟩ := h
  · exact .lf rest rest
  · exact .crlf rest rest
  · exact .cr hrest hrest

theorem exists_isLineEnd {c : Char} (hc : isLineEnd c = true) (text : List Char) :
    ∃ lineEnd rest, c :: text = lineEnd ++ rest ∧ IsLineEnd lineEnd rest := by
  obtain ⟨rest, hend⟩ := exists_sameEnd hc text
  generalize htext : c :: text = t at hend
  cases hend with
  | lf => exact ⟨['\n'], rest, rfl, .inl rfl⟩
  | crlf => exact ⟨['\r', '\n'], rest, rfl, .inr (.inl rfl)⟩
  | cr hrest => exact ⟨['\r'], rest, rfl, .inr (.inr ⟨rfl, hrest⟩)⟩

/-- A piece also fits in front of a `$`. -/
theorem Piece.Fits.of_head? (h : piece.Fits mode after)
    (hhead : after'.head? = after.head? ∨ after'.head? = some '$') : piece.Fits mode after' := by
  have hstop {p : Char → Bool} (hp : p '$' = false) (h : ∀ c ∈ after.head?, p c = false) :
      ∀ c ∈ after'.head?, p c = false := by
    obtain hhead | hhead := hhead
    · rwa [hhead]
    · simpa [hhead] using hp
  cases piece with
  | plain _ | escaped _ | braced _ => exact h
  | simple name => exact ⟨h.1, h.2.1, hstop (by decide) h.2.2⟩
  | goesOn lineEnd blanks =>
    obtain ⟨hend, hblanks, hafter⟩ := h
    refine ⟨?_, hblanks, hstop (by decide) hafter⟩
    obtain hlf | hcrlf | ⟨hcr, hnext⟩ := hend
    · exact .inl hlf
    · exact .inr (.inl hcrlf)
    · refine .inr (.inr ⟨hcr, ?_⟩)
      rw [List.head?_append] at hnext ⊢
      cases blanks with
      | nil => obtain hhead | hhead := hhead <;> simp_all
      | cons c blanks => exact hnext

theorem Fit.of_head? (h : Fit mode after pieces)
    (hhead : after'.head? = after.head? ∨ after'.head? = some '$') : Fit mode after' pieces := by
  induction pieces with
  | nil => trivial
  | cons piece more ih =>
    refine ⟨h.1.of_head? ?_, ih h.2⟩
    rw [List.head?_append, List.head?_append]
    cases (textOf more).head? with
    | none => exact hhead
    | some c => exact .inl rfl

/-! ## Text in pieces -/

theorem charPieces_cons (escapes : Char → Bool) (c : Char) (text : List Char) :
    charPieces escapes (c :: text) =
      (if escapes c then .escaped c else .plain c) :: charPieces escapes text := rfl

theorem textOf_charPieces (escapes : Char → Bool) (text : List Char) :
    textOf (charPieces escapes text) =
      text.flatMap fun c => if escapes c then ['$', c] else [c] := by
  rw [textOf, charPieces, List.flatMap_map]
  refine congrArg text.flatMap (funext fun c => ?_)
  split
  all_goals rfl

theorem fit_charPieces {escapes : Char → Bool}
    (hescaped : ∀ c ∈ text, escapes c = true → isEscaped c = true)
    (hplain : ∀ c ∈ text, ¬escapes c = true → mode.isPlain c = true) :
    Fit mode after (charPieces escapes text) := by
  induction text with
  | nil => trivial
  | cons c text ih =>
    obtain ⟨hescaped, hescapeds⟩ := List.forall_mem_cons.mp hescaped
    obtain ⟨hplain, hplains⟩ := List.forall_mem_cons.mp hplain
    rw [charPieces_cons]
    refine ⟨?_, ih hescapeds hplains⟩
    split
    · next h => exact hescaped h
    · next h => exact hplain h

/-- The pieces of a text add the text. -/
theorem foldl_add_charPieces (escapes : Char → Bool) (t : Template) (text : List Char) :
    (charPieces escapes text).foldl Piece.add t = t.pushLiteral (String.ofList text) := by
  induction text generalizing t with
  | nil => rfl
  | cons c text ih =>
    have hadd : Piece.add t (if escapes c then .escaped c else .plain c) =
        t.pushLiteral (String.ofList [c]) := by
      split
      all_goals rfl
    rw [charPieces_cons, List.foldl_cons, hadd, ih, Template.pushLiteral_pushLiteral,
      ← String.ofList_append]
    rfl

end Manifest

namespace Cursor

/-- The cursor is inside a line and has the text to read. -/
structure At (text : List Char) (c : Cursor) : Prop where
  rest : c.rest = text
  inside : c.atLineStart = false

variable {c d : Cursor} {t u : Template} {mode : ValueMode} {p : Char → Bool} {piece : Piece}
  {ps : List Piece} {before text after : List Char} {ch : Char}

theorem takeWhile_of_stop (hstop : ∀ ch ∈ text.head?, p ch = false) :
    text.takeWhile p = [] ∧ text.dropWhile p = text := by
  cases text with
  | nil => simp
  | cons ch text => simp [hstop ch rfl]

theorem takeWhile_append_stop (hbefore : ∀ ch ∈ before, p ch = true)
    (hstop : ∀ ch ∈ text.head?, p ch = false) :
    (before ++ text).takeWhile p = before ∧ (before ++ text).dropWhile p = text := by
  obtain ⟨htake, hdrop⟩ := takeWhile_of_stop hstop
  rw [List.takeWhile_append_of_pos hbefore, List.dropWhile_append_of_pos hbefore, htake, hdrop]
  simp

theorem At.skipWhile (h : c.At (before ++ text)) (hbefore : ∀ ch ∈ before, p ch = true)
    (hstop : ∀ ch ∈ text.head?, p ch = false) :
    c.rest.takeWhile p = before ∧ (c.skipWhile p).At text := by
  have hcut := takeWhile_append_stop hbefore hstop
  rw [← h.rest] at hcut
  exact ⟨hcut.1, hcut.2, h.inside⟩

theorem At.skip (h : c.At (ch :: text)) : c.skip.At text :=
  ⟨rest_skip h.rest, (atLineStart_skip c).trans h.inside⟩

theorem At.inLine (h : c.At text) : c.inLine.At text := ⟨h.rest, rfl⟩

theorem skipWhile_of_nil (h : c.rest.takeWhile p = []) : c.skipWhile p = c := by
  have hrest : c.rest.dropWhile p = c.rest := rest_skipWhile_of_nil h
  simp [Cursor.skipWhile, h, hrest, Utf8.size]

theorem At.skipWhile_eq (h : c.At text) (hstop : ∀ ch ∈ text.head?, p ch = false) :
    c.skipWhile p = c := by
  refine skipWhile_of_nil ?_
  rw [h.rest]
  exact (takeWhile_of_stop hstop).1

theorem inLine_of_inside (h : c.atLineStart = false) : c.inLine = c := by
  cases c
  cases h
  rfl

/-! ## Reading pieces -/

theorem pieces_congr (hskip : c.skipWhile mode.isPlain = d.skipWhile mode.isPlain)
    (hpush : t.pushLiteral (String.ofList (c.rest.takeWhile mode.isPlain)) =
      u.pushLiteral (String.ofList (d.rest.takeWhile mode.isPlain))) :
    pieces mode c t = pieces mode d u := by
  rw [pieces.eq_def mode c t, pieces.eq_def mode d u]
  dsimp only
  rw [hskip, hpush]

/-- A value can be read character by character. -/
theorem pieces_of_plain (h : c.rest = ch :: text) (hch : mode.isPlain ch = true) :
    pieces mode c t = pieces mode c.skip (t.pushLiteral (String.ofList [ch])) := by
  have hskip := rest_skip h
  refine pieces_congr ?_ ?_
  · simp [Cursor.skipWhile, Cursor.skip, h, hch, Utf8.size_cons, Nat.add_assoc]
  · rw [Template.pushLiteral_pushLiteral, ← String.ofList_append, hskip, h,
      List.takeWhile_cons_of_pos hch]
    rfl

/-- At an escape no text has to be taken first. -/
theorem pieces_of_dollar {t' : Template} {c' : Cursor} (h : c.rest = '$' :: text)
    (hread : c.escape t = .ok t' c') : pieces mode c t = pieces mode c' t' := by
  have hnil : c.rest.takeWhile mode.isPlain = [] := by simp [h, ValueMode.isPlain]
  have hskip := skipWhile_of_nil hnil
  refine pieces_of_escape (hskip ▸ h) ?_
  rw [hskip, pushLiteral_takeWhile_of_nil hnil]
  exact hread

theorem pieces_of_escaped (h : c.rest = '$' :: ch :: text) (hch : isEscaped ch = true) :
    pieces mode c t = pieces mode c.skip.skip (t.pushLiteral (String.ofList [ch])) := by
  refine pieces_of_dollar h ?_
  have hskip := rest_skip h
  obtain (rfl | rfl) | rfl : (ch = '$' ∨ ch = ' ') ∨ ch = ':' := by simpa [isEscaped] using hch
  all_goals rw [escape, hskip]; rfl

/-- A piece that fits is read as a whole. -/
theorem At.readPiece (h : c.At (piece.text ++ after)) (hfits : piece.Fits mode after) :
    ∃ d, d.At after ∧ ∀ t, pieces mode c t = pieces mode d (piece.add t) := by
  cases piece with
  | plain ch => exact ⟨c.skip, h.skip, fun t => pieces_of_plain h.rest hfits⟩
  | escaped ch => exact ⟨c.skip.skip, h.skip.skip, fun t => pieces_of_escaped h.rest hfits⟩
  | braced name =>
    obtain ⟨hname, hident⟩ := hfits
    have hopen : c.skip.At ('\x7b' :: (name ++ ('\x7d' :: after))) := by
      simpa [Piece.text] using h.skip
    obtain ⟨htake, hclose⟩ := hopen.skip.skipWhile hident (by simp [isIdentChar])
    refine ⟨_, hclose.skip, fun t => pieces_of_dollar h.rest ?_⟩
    rw [escape_of_brace hopen.rest (htake ▸ hname) hclose.rest, htake]
    rfl
  | simple name =>
    obtain ⟨hname, hsimple, hstop⟩ := hfits
    obtain ⟨ch, name, rfl⟩ := List.exists_cons_of_ne_nil hname
    obtain ⟨htake, hd⟩ := h.skip.skipWhile hsimple hstop
    refine ⟨_, hd, fun t => pieces_of_dollar h.rest ?_⟩
    rw [escape_of_simpleVar h.skip.rest (hsimple ch List.mem_cons_self), htake]
    rfl
  | goesOn lineEnd blanks =>
    obtain ⟨hend, hblanks, hstop⟩ := hfits
    have hline : c.skip.At (lineEnd ++ (blanks ++ after)) := by
      simpa [Piece.text] using h.skip
    have hsame := hend.sameEnd
    rw [← hline.rest] at hsame
    obtain ⟨ch, text, -, hfront, -, hch⟩ := hsame.front
    obtain ⟨width, hskip, -⟩ := skipLineEnd_of_sameEnd hsame
    have hnext : c.skip.skipLineEnd.inLine.At (blanks ++ after) := ⟨by rw [hskip]; rfl, rfl⟩
    exact ⟨_, (hnext.skipWhile hblanks hstop).2,
      fun t => pieces_of_dollar h.rest (escape_of_lineEnd hfront hch)⟩

theorem At.readPieces (h : c.At (textOf ps ++ after)) (hfit : Fit mode after ps) :
    ∃ d, d.At after ∧
      ∀ t, Cursor.pieces mode c t = Cursor.pieces mode d (ps.foldl Piece.add t) := by
  induction ps generalizing c with
  | nil => exact ⟨c, h, fun t => rfl⟩
  | cons piece more ih =>
    rw [textOf_cons, List.append_assoc] at h
    obtain ⟨d, hd, hpiece⟩ := h.readPiece hfit.1
    obtain ⟨e, he, hmore⟩ := ih hd hfit.2
    exact ⟨e, he, fun t => (hpiece t).trans (hmore _)⟩

/-- Where a value ends nothing is added to it. -/
theorem pieces_of_endsValue (h : EndsValue mode c.rest) :
    pieces mode c t = .ok t (match mode with | .path => c | .line => c.skipLineEnd) := by
  have hnil : c.rest.takeWhile mode.isPlain = [] := (takeWhile_of_stop fun ch hch => (h ch hch).1).1
  have hskip := skipWhile_of_nil hnil
  have hfront (v : List Char) : (c.skipWhile mode.isPlain).rest ≠ '$' :: v := by
    rw [hskip]
    intro hv
    exact (h '$' (by rw [hv]; rfl)).2 rfl
  cases mode with
  | path => rw [pieces_path_of_end hfront, pushLiteral_takeWhile_of_nil hnil, hskip]
  | line => rw [pieces_line_of_end hfront, pushLiteral_takeWhile_of_nil hnil, hskip]

/-! ## Values that can be read -/

/-- Whatever an escape is read from is a piece. -/
theorem exists_piece (mode : ValueMode) {v : List Char} (h : c.rest = '$' :: v)
    (hread : c.escape t = .ok u d) :
    ∃ piece : Piece, c.rest = piece.text ++ d.rest ∧ piece.Fits mode d.rest ∧ u = piece.add t := by
  have hv := rest_skip h
  have hcut (p : Char → Bool) (e : Cursor) : e.rest = e.rest.takeWhile p ++ (e.skipWhile p).rest :=
    List.takeWhile_append_dropWhile.symm
  have hall (p : Char → Bool) (e : Cursor) : ∀ ch ∈ e.rest.takeWhile p, p ch = true :=
    List.all_eq_true.mp List.all_takeWhile
  have hstop (p : Char → Bool) (e : Cursor) : ∀ ch ∈ (e.skipWhile p).rest.head?, p ch = false :=
    fun _ => eq_false_of_head?_dropWhile
  have hescaped {ch : Char} {w : List Char} (hw : c.skip.rest = ch :: w)
      (hch : isEscaped ch = true) : ∃ piece : Piece, c.rest = piece.text ++ c.skip.skip.rest ∧
        piece.Fits mode c.skip.skip.rest ∧ t.pushLiteral (String.ofList [ch]) = piece.add t :=
    ⟨.escaped ch, by rw [h, ← hv, hw, rest_skip hw]; rfl, hch, rfl⟩
  unfold escape at hread
  dsimp only at hread
  split at hread
  · next w hw =>
    cases hread
    exact hescaped hw rfl
  · next w hw =>
    cases hread
    exact hescaped hw rfl
  · next w hw =>
    cases hread
    exact hescaped hw rfl
  · next w hw =>
    split at hread
    · next x hx =>
      split at hread
      · cases hread
      · next hname =>
        cases hread
        refine ⟨.braced (c.skip.skip.rest.takeWhile isIdentChar), ?_, ?_, rfl⟩
        · have hopen := hcut isIdentChar c.skip.skip
          rw [hx, rest_skip hw] at hopen
          rw [h, ← hv, hw, rest_skip hx, Piece.text, rest_skip hw]
          simpa using hopen
        · exact ⟨by simpa using hname, hall isIdentChar _⟩
    · cases hread
  · next ch w _ _ _ _ hw =>
    split at hread
    · next hend =>
      cases hread
      obtain ⟨lineEnd, rest, hline, hlineEnd⟩ := exists_isLineEnd hend w
      have hsame := hlineEnd.sameEnd
      rw [← hline, ← hw] at hsame
      obtain ⟨width, hskip, -⟩ := skipLineEnd_of_sameEnd hsame
      have hrest : c.skip.skipLineEnd.inLine.rest = rest := by rw [hskip]; rfl
      have hblanks := hcut isSpaceOrTab c.skip.skipLineEnd.inLine
      refine ⟨.goesOn lineEnd (c.skip.skipLineEnd.inLine.rest.takeWhile isSpaceOrTab), ?_, ?_, rfl⟩
      · rw [h, ← hv, hw, hline, Piece.text, List.cons_append, List.append_assoc, ← hblanks, hrest]
      · refine ⟨?_, hall isSpaceOrTab _, hstop isSpaceOrTab _⟩
        rwa [← hblanks, hrest]
    split at hread
    · next hsimple =>
      cases hread
      refine ⟨.simple (c.skip.rest.takeWhile isSimpleVarChar), ?_, ?_, rfl⟩
      · rw [h, ← hv, Piece.text, List.cons_append, ← hcut]
      · refine ⟨?_, hall isSimpleVarChar _, hstop isSimpleVarChar _⟩
        simp [hw, hsimple]
    · cases hread
  · cases hread

/-- The stretch of plain characters at the front, in pieces. -/
def plainFront (mode : ValueMode) (c : Cursor) : List Piece :=
  charPieces (fun _ => false) (c.rest.takeWhile mode.isPlain)

theorem rest_eq_plainFront (mode : ValueMode) (c : Cursor) :
    c.rest = textOf (plainFront mode c) ++ (c.skipWhile mode.isPlain).rest := by
  have hplain : textOf (plainFront mode c) = c.rest.takeWhile mode.isPlain := by
    simp [plainFront, textOf_charPieces]
  rw [hplain]
  exact List.takeWhile_append_dropWhile.symm

theorem fit_plainFront (c : Cursor) : Fit mode after (plainFront mode c) :=
  fit_charPieces nofun fun ch hch _ => List.all_eq_true.mp List.all_takeWhile ch hch

/-- A value that ends after plain characters. -/
theorem exists_pieces_of_end (t : Template)
    (hfront : ∀ v, (c.skipWhile mode.isPlain).rest = '$' :: v → False) : ∃ ps stop,
    c.rest = textOf ps ++ stop ∧ Fit mode stop ps ∧ EndsValue mode stop ∧
      t.pushLiteral (String.ofList (c.rest.takeWhile mode.isPlain)) = ps.foldl Piece.add t := by
  refine ⟨plainFront mode c, (c.skipWhile mode.isPlain).rest, rest_eq_plainFront mode c,
    fit_plainFront c, fun ch hch => ⟨eq_false_of_head?_dropWhile hch, ?_⟩,
    (foldl_add_charPieces ..).symm⟩
  rintro rfl
  obtain ⟨v, hv⟩ := List.head?_eq_some_iff.mp hch
  exact hfront v hv

/-- What was read of a value is made of pieces. -/
theorem exists_pieces (h : pieces mode c t = .ok u d) : ∃ ps stop,
    c.rest = textOf ps ++ stop ∧ Fit mode stop ps ∧ EndsValue mode stop ∧
      u = ps.foldl Piece.add t := by
  fun_induction Cursor.pieces mode c t with
  | case1 c t t₁ c₁ v hfront t₂ c₂ hescape ih =>
    obtain ⟨piece, hpiece, hfits, rfl⟩ := exists_piece mode hfront hescape
    obtain ⟨ps, stop, hrest, hfit, hstop, rfl⟩ := ih h
    refine ⟨plainFront mode c ++ piece :: ps, stop, ?_, ?_, hstop, ?_⟩
    · rw [textOf_append, textOf_cons, List.append_assoc, List.append_assoc, ← hrest, ← hpiece]
      exact rest_eq_plainFront mode c
    · exact fit_append.mpr ⟨fit_plainFront c, hrest ▸ hfits, hfit⟩
    · rw [List.foldl_append, List.foldl_cons, plainFront, foldl_add_charPieces]
  | case2 => cases h
  | case3 c t t₁ c₁ hmode hfront =>
    subst hmode
    obtain ⟨rfl, -⟩ : t₁ = u ∧ c₁ = d := by simpa using h
    exact exists_pieces_of_end t hfront
  | case4 c t t₁ c₁ hmode hfront =>
    subst hmode
    obtain ⟨rfl, -⟩ : t₁ = u ∧ c₁.skipLineEnd = d := by simpa using h
    exact exists_pieces_of_end t hfront

/-! ## Bytes that are left -/

/-- How many bytes the whole text has, read or not. -/
def extent (c : Cursor) : Nat := c.offset + Utf8.size c.rest

@[simp] theorem extent_inLine (c : Cursor) : c.inLine.extent = c.extent := rfl

@[simp] theorem extent_skipWhile (p : Char → Bool) (c : Cursor) :
    (c.skipWhile p).extent = c.extent := by
  have hcut := congrArg Utf8.size (List.takeWhile_append_dropWhile (p := p) (l := c.rest))
  rw [Utf8.size_append] at hcut
  simp only [extent, skipWhile]
  omega

@[simp] theorem extent_skip (c : Cursor) : c.skip.extent = c.extent := by
  unfold skip
  split
  · rfl
  · next hrest => simp [extent, hrest, Nat.add_assoc]

@[simp] theorem extent_skipLineEnd (c : Cursor) : c.skipLineEnd.extent = c.extent := by
  have hlf : '\n'.utf8Size = 1 := by decide
  have hcr : '\r'.utf8Size = 1 := by decide
  unfold skipLineEnd
  split
  · next hrest => simp [extent, toNextLine, hrest, hlf, hcr]; omega
  · next hrest => simp [extent, toNextLine, hrest, hcr]; omega
  · next hrest => simp [extent, toNextLine, hrest, hlf]; omega
  · rfl

theorem extent_escape (h : c.escape t = .ok u d) : d.extent = c.extent := by
  unfold escape at h
  dsimp only at h
  split at h
  · cases h; simp
  · cases h; simp
  · cases h; simp
  · split at h
    · split at h
      · cases h
      · cases h; simp
    · cases h
  · split at h
    · cases h; simp
    split at h
    · cases h; simp
    · cases h
  · cases h

theorem extent_pieces (h : pieces mode c t = .ok u d) : d.extent = c.extent := by
  fun_induction Cursor.pieces mode c t with
  | case1 c t t₁ c₁ v hfront t₂ c₂ hescape ih =>
    rw [ih h, extent_escape hescape]
    exact extent_skipWhile ..
  | case2 => cases h
  | case3 c t t₁ c₁ hmode hfront =>
    obtain ⟨-, rfl⟩ : t₁ = u ∧ c₁ = d := by simpa using h
    exact extent_skipWhile ..
  | case4 c t t₁ c₁ hmode hfront =>
    obtain ⟨-, rfl⟩ : t₁ = u ∧ c₁.skipLineEnd = d := by simpa using h
    rw [extent_skipLineEnd]
    exact extent_skipWhile ..

/-- What is read of a value and what is left of the text are the whole text. -/
theorem extent_value (h : c.value mode = .ok t d) : d.extent = c.extent := by
  rw [extent_pieces h, extent_skipWhile, extent_inLine]

end Cursor

end Rebuild
