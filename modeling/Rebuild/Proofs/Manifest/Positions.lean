import Rebuild.Proofs.Manifest.Continued

/-!
# Positions in a text

A cursor keeps count of bytes and lines as it moves. What it reports is what the text before it
says: one line more than there are line ends, and one column more than there are bytes after the
last of them. `Passes` relates two cursors of which the second has moved over a part of the text; it
holds of every move because no move stops between a carriage return and the line feed after it.
-/

namespace Rebuild

open Manifest

namespace Manifest

/-- How many line ends a text has. A carriage return and the line feed after it are one. -/
def lineEndCount : List Char → Nat
  | [] => 0
  | '\r' :: '\n' :: rest => lineEndCount rest + 1
  | c :: rest => lineEndCount rest + if isLineEnd c then 1 else 0

/-- What comes after the last line end. -/
def lastLine (text : List Char) : List Char := (text.reverse.takeWhile isInLine).reverse

/-- The place behind a text. -/
def placeAfter (before : List Char) : Location :=
  ⟨1 + lineEndCount before, Utf8.size (lastLine before) + 1⟩

/-- A text goes on with a part that does not begin within its last line end. -/
def Whole (before rest : List Char) : Prop :=
  before.getLast? = some '\r' → rest.head? ≠ some '\n'

variable {before mid more rest lineEnd : List Char} {c : Char}

theorem whole_nil (rest : List Char) : Whole [] rest := nofun

theorem Whole.append (h : Whole before (mid ++ rest)) (hmid : Whole mid rest) :
    Whole (before ++ mid) rest := by
  by_cases hnil : mid = []
  · subst hnil
    rwa [List.append_nil]
  · rwa [Whole, List.getLast?_append_of_ne_nil before hnil]

theorem whole_of_inLine (h : ∀ c ∈ mid, isLineEnd c = false) : Whole mid rest := by
  intro hlast
  have := h '\r' (List.mem_of_getLast? hlast)
  cases this

theorem IsLineEnd.whole (h : IsLineEnd lineEnd rest) : Whole lineEnd rest := by
  obtain rfl | rfl | ⟨rfl, hrest⟩ := h
  · nofun
  · nofun
  · exact fun _ => hrest

/-! ## Line ends -/

theorem lineEndCount_eq_zero_iff : lineEndCount mid = 0 ↔ ∀ c ∈ mid, isLineEnd c = false := by
  fun_induction lineEndCount mid with
  | case1 => simp
  | case2 rest ih => simp [isLineEnd]
  | case3 c rest _ ih =>
    rw [Nat.add_eq_zero_iff, ih, List.forall_mem_cons, and_comm]
    cases isLineEnd c <;> simp

theorem IsLineEnd.lineEndCount_eq (h : IsLineEnd lineEnd rest) : lineEndCount lineEnd = 1 := by
  obtain rfl | rfl | ⟨rfl, -⟩ := h
  all_goals rfl

/-- Texts that are put together have the line ends of both, unless one line end is made of two. -/
theorem lineEndCount_append (h : Whole mid more) :
    lineEndCount (mid ++ more) = lineEndCount mid + lineEndCount more := by
  fun_induction lineEndCount mid with
  | case1 => simp
  | case2 rest ih =>
    have hrest : Whole rest more := by
      by_cases hnil : rest = []
      · subst hnil
        exact whole_nil more
      · rwa [Whole, List.getLast?_cons_cons, List.getLast?_cons_of_ne_nil hnil] at h
    rw [List.cons_append, List.cons_append, lineEndCount, ih hrest]
    omega
  | case3 c rest hcrlf ih =>
    by_cases hnil : rest = []
    · subst hnil
      rw [List.cons_append, List.nil_append, lineEndCount.eq_3]
      · rw [lineEndCount]
        omega
      · rintro more rfl rfl
        exact h rfl rfl
    · have hrest : Whole rest more := by rwa [Whole, List.getLast?_cons_of_ne_nil hnil] at h
      rw [List.cons_append, lineEndCount.eq_3, ih hrest]
      · omega
      · rintro more' rfl heq
        obtain ⟨d, rest', rfl⟩ := List.exists_cons_of_ne_nil hnil
        cases heq
        exact hcrlf rest' rfl rfl

@[simp] theorem lastLine_nil : lastLine [] = [] := rfl

theorem lastLine_append_of_inLine (before : List Char) (h : ∀ c ∈ mid, isLineEnd c = false) :
    lastLine (before ++ mid) = lastLine before ++ mid := by
  have hmid : ∀ c ∈ mid.reverse, isInLine c = true := by simpa [isInLine] using h
  rw [lastLine, List.reverse_append, List.takeWhile_append_of_pos hmid, List.reverse_append,
    List.reverse_reverse, lastLine]

theorem lastLine_of_inLine (h : ∀ c ∈ mid, isLineEnd c = false) : lastLine mid = mid := by
  simpa using lastLine_append_of_inLine [] h

/-- What comes after the last line end does not change with what comes before it. -/
theorem lastLine_append_of_lineEnd (before : List Char) (h : lineEndCount mid ≠ 0) :
    lastLine (before ++ mid) = lastLine mid := by
  have hmid : ¬∀ c ∈ mid.reverse, isInLine c = true := fun hall =>
    h (lineEndCount_eq_zero_iff.mpr (by simpa [isInLine] using hall))
  rw [lastLine, List.reverse_append, List.takeWhile_append, if_neg, lastLine]
  intro hlength
  refine hmid fun c hc => ?_
  rw [← (List.takeWhile_prefix isInLine).eq_of_length hlength] at hc
  exact List.all_eq_true.mp List.all_takeWhile c hc

theorem IsLineEnd.lastLine_append (h : IsLineEnd lineEnd rest) (before : List Char) :
    lastLine (before ++ lineEnd) = [] := by
  rw [lastLine_append_of_lineEnd before (by simp [h.lineEndCount_eq])]
  obtain rfl | rfl | ⟨rfl, -⟩ := h
  all_goals rfl

end Manifest

namespace Cursor

variable {α : Type} {c d e : Cursor} {mid more before text lineEnd : List Char} {ch : Char}
  {p : Char → Bool}

/-- The second cursor stands where the first one comes by moving over `mid`. -/
structure Passes (mid : List Char) (c d : Cursor) : Prop where
  rest : c.rest = mid ++ d.rest
  whole : Whole mid d.rest
  offset : d.offset = c.offset + Utf8.size mid
  line : d.line = c.line + lineEndCount mid
  sameLine : lineEndCount mid = 0 → d.lineStart = c.lineStart
  otherLine : lineEndCount mid ≠ 0 → d.lineStart + Utf8.size (lastLine mid) = d.offset

namespace Passes

theorem refl (c : Cursor) : Passes [] c c :=
  ⟨rfl, whole_nil _, rfl, rfl, fun _ => rfl, fun h => absurd rfl h⟩

theorem trans (h : Passes mid c d) (h' : Passes more d e) : Passes (mid ++ more) c e := by
  have hwhole : Whole mid (more ++ e.rest) := h'.rest ▸ h.whole
  have hcount : lineEndCount (mid ++ more) = lineEndCount mid + lineEndCount more := by
    by_cases hnil : more = []
    · simp [hnil, lineEndCount]
    · refine lineEndCount_append fun hlast => ?_
      rw [Whole, List.head?_append_of_ne_nil more hnil] at hwhole
      exact hwhole hlast
  refine ⟨?_, hwhole.append h'.whole, ?_, ?_, fun hzero => ?_, fun hne => ?_⟩
  · rw [h.rest, h'.rest, List.append_assoc]
  · rw [h'.offset, h.offset, Utf8.size_append, Nat.add_assoc]
  · rw [h'.line, h.line, hcount, Nat.add_assoc]
  · rw [h'.sameLine (by omega), h.sameLine (by omega)]
  · by_cases hmore : lineEndCount more = 0
    · have hinLine := lineEndCount_eq_zero_iff.mp hmore
      rw [lastLine_append_of_inLine mid hinLine, h'.sameLine hmore, h'.offset, Utf8.size_append]
      have := h.otherLine (by omega)
      omega
    · rw [lastLine_append_of_lineEnd mid hmore]
      exact h'.otherLine hmore

theorem inLine (c : Cursor) : Passes [] c c.inLine :=
  ⟨rfl, whole_nil _, rfl, rfl, fun _ => rfl, fun h => absurd rfl h⟩

theorem skipWhile (hp : Plain false p) (c : Cursor) :
    Passes (c.rest.takeWhile p) c (c.skipWhile p) := by
  have hinLine : ∀ ch ∈ c.rest.takeWhile p, isLineEnd ch = false := fun ch hch =>
    (hp ch (List.all_eq_true.mp List.all_takeWhile ch hch)).1
  have hzero := lineEndCount_eq_zero_iff.mpr hinLine
  exact ⟨List.takeWhile_append_dropWhile.symm, whole_of_inLine hinLine, rfl, hzero.symm ▸ rfl,
    fun _ => rfl, fun hne => absurd hzero hne⟩

/-- A comment reaches to the end of its line. -/
theorem comment {rest : List Char} (h : c.rest = '#' :: rest) : ∃ note,
    (∀ ch ∈ note, isLineEnd ch = false) ∧ Passes ('#' :: note) c (c.skipWhile isInLine) := by
  have hpasses : Passes (c.rest.takeWhile isInLine) c (c.skipWhile isInLine) :=
    skipWhile plain_isInLine c
  have hnote : c.rest.takeWhile isInLine = '#' :: rest.takeWhile isInLine := by
    rw [h]
    rfl
  rw [hnote] at hpasses
  refine ⟨_, fun ch hch => ?_, hpasses⟩
  simpa [isInLine] using List.all_eq_true.mp List.all_takeWhile ch hch

theorem skip {rest : List Char} (h : c.rest = ch :: rest) (hch : isLineEnd ch = false) :
    Passes [ch] c c.skip := by
  have hinLine : ∀ c ∈ [ch], isLineEnd c = false := by simpa using hch
  have hzero := lineEndCount_eq_zero_iff.mpr hinLine
  have hskip : c.skip = { c with rest := rest, offset := c.offset + ch.utf8Size } := by
    simp [Cursor.skip, h]
  rw [hskip]
  exact ⟨h, whole_of_inLine hinLine, by simp, hzero.symm ▸ rfl, fun _ => rfl,
    fun hne => absurd hzero hne⟩

/-- At a line end the cursor moves to the start of the next line. -/
theorem skipLineEnd {rest : List Char} (h : c.rest = ch :: rest) (hch : isLineEnd ch = true) :
    ∃ lineEnd, IsLineEnd lineEnd c.skipLineEnd.rest ∧ Passes lineEnd c c.skipLineEnd ∧
      c.skipLineEnd.atLineStart = true := by
  obtain ⟨lineEnd, rest', hrest, hend⟩ := exists_isLineEnd hch rest
  have hsame := hend.sameEnd
  rw [← hrest, ← h] at hsame
  obtain ⟨width, hskip, -⟩ := skipLineEnd_of_sameEnd hsame
  have hwidth : width = Utf8.size lineEnd := by
    have hextent := extent_skipLineEnd c
    simp only [hskip, extent, toNextLine, h, hrest, Utf8.size_append] at hextent
    omega
  rw [hskip, hwidth]
  refine ⟨lineEnd, hend, ⟨h.trans hrest, hend.whole, rfl, by rw [hend.lineEndCount_eq]; rfl,
    fun hzero => ?_, fun _ => ?_⟩, rfl⟩
  · rw [hend.lineEndCount_eq] at hzero
    cases hzero
  · have hlast := hend.lastLine_append []
    rw [List.nil_append] at hlast
    rw [hlast]
    rfl

end Passes

/-- The second cursor stands behind the first one, or where it does. -/
def Ahead (c d : Cursor) : Prop := ∃ mid, Passes mid c d

theorem Passes.ahead (h : Passes mid c d) : Ahead c d := ⟨mid, h⟩

theorem Ahead.refl (c : Cursor) : Ahead c c := (Passes.refl c).ahead

theorem Ahead.trans (h : Ahead c d) (h' : Ahead d e) : Ahead c e :=
  have ⟨_, hpasses⟩ := h
  have ⟨_, hpasses'⟩ := h'
  (hpasses.trans hpasses').ahead

/-- A cursor that has moved on from the start of a text reports the place behind what it moved
over. -/
theorem Passes.location_eq (h : Passes before (start text) c) : c.location = placeAfter before := by
  have hline : c.line = 1 + lineEndCount before := h.line
  have hoffset : c.offset = Utf8.size before := by simpa [start] using h.offset
  have hcolumn : c.lineStart + Utf8.size (lastLine before) = c.offset := by
    by_cases hzero : lineEndCount before = 0
    · rw [lastLine_of_inLine (lineEndCount_eq_zero_iff.mp hzero), h.sameLine hzero, hoffset]
      exact Nat.zero_add _
    · exact h.otherLine hzero
  rw [location, placeAfter, hline]
  congr 2
  omega

end Cursor

end Rebuild
