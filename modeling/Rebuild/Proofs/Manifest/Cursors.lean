import Rebuild.Proofs.Manifest.Lines

/-!
# Cursors in the same line

Two cursors that share the rest of a line read the same in it. After its end both are at the start
of a line, where the second one may have a comment to pass over first. The places that they report
are not compared.
-/

namespace Rebuild

open Manifest

namespace Manifest

variable {escapes : Bool} {R : List Char → List Char → Prop} {text text' : List Char}
  {p : Char → Bool}

/-- The characters that satisfy `p` can be read without looking at what a line end or an escape
means. -/
def Plain (escapes : Bool) (p : Char → Bool) : Prop :=
  ∀ c, p c = true → isLineEnd c = false ∧ (escapes && c = '$') = false

theorem SameLine.takeWhile_dropWhile (h : SameLine escapes R false text text')
    (hp : Plain escapes p) : text.takeWhile p = text'.takeWhile p ∧
      SameLine escapes R false (text.dropWhile p) (text'.dropWhile p) := by
  have stop {c : Char} (hc : isLineEnd c = true) : p c = false :=
    Bool.eq_false_iff.mpr fun hpc => by simp [(hp c hpc).1] at hc
  generalize hescaped : false = escaped at h
  induction h with
  | ended h => exact ⟨rfl, .ended h⟩
  | lineEnd hend hrest =>
    obtain ⟨c, u, u', rfl, rfl, hc⟩ := hend.front
    simp only [List.takeWhile_cons, List.dropWhile_cons, stop hc]
    exact ⟨rfl, .lineEnd hend hrest⟩
  | char hc h ih =>
    rename_i c u u'
    by_cases hpc : p c = true
    · rw [(hp c hpc).2] at h ih
      simp only [List.takeWhile_cons, List.dropWhile_cons, hpc, if_true]
      exact ⟨congrArg (c :: ·) (ih rfl).1, (ih rfl).2⟩
    · simp only [List.takeWhile_cons, List.dropWhile_cons, hpc]
      exact ⟨rfl, .char hc h⟩
  | goesOn _ _ | escaped _ _ => cases hescaped

/-- What two texts that share a line have in front. -/
theorem SameLine.front (h : SameLine escapes R false text text') :
    (text = [] ∧ text' = [] ∧ R [] []) ∨
    (∃ u u', SameEnd text text' u u' ∧ R u u') ∨
    ∃ c u u', isLineEnd c = false ∧ text = c :: u ∧ text' = c :: u' ∧
      SameLine escapes R (escapes && c = '$') u u' := by
  cases h with
  | ended h => exact .inl ⟨rfl, rfl, h⟩
  | lineEnd hend h => exact .inr (.inl ⟨_, _, hend, h⟩)
  | char hc h => exact .inr (.inr ⟨_, _, _, hc, rfl, rfl, h⟩)

theorem SameLine.head?_eq (h : SameLine escapes R false text text') :
    text.head? = text'.head? := by
  obtain ⟨rfl, rfl, -⟩ | ⟨u, u', hend, -⟩ | ⟨c, u, u', -, rfl, rfl, -⟩ := h.front
  · rfl
  · obtain ⟨c, v, v', rfl, rfl, -⟩ := hend.front
    rfl
  · rfl

theorem SameLine.cons {c : Char} {u : List Char} (h : SameLine escapes R false (c :: u) text')
    (hc : isLineEnd c = false) :
    ∃ u', text' = c :: u' ∧ SameLine escapes R (escapes && c = '$') u u' := by
  obtain ⟨hu, -⟩ | ⟨v, v', hend, -⟩ | ⟨_, _, u', -, hu, rfl, h⟩ := h.front
  · cases hu
  · obtain ⟨_, _, _, hu, -, hend⟩ := hend.front
    cases hu
    rw [hc] at hend
    cases hend
  · cases hu
    exact ⟨u', rfl, h⟩

theorem eq_false_of_head?_dropWhile {c : Char} (h : (text.dropWhile p).head? = some c) :
    p c = false := by
  have hstop := List.head?_dropWhile_not p text
  rwa [h] at hstop

theorem plain_isSpace (escapes : Bool) : Plain escapes isSpace := by
  simp [Plain, isSpace, isLineEnd]

theorem plain_isSpaceOrTab (escapes : Bool) : Plain escapes isSpaceOrTab := by
  rintro c hc
  obtain rfl | rfl : c = ' ' ∨ c = '\t' := by simpa [isSpaceOrTab] using hc
  all_goals simp [isLineEnd]

theorem plain_of_alphanum (h : ∀ c, p c = true → c.isAlphanum || c = '_' || c = '.' || c = '-') :
    Plain escapes p := by
  intro c hc
  have := h c hc
  constructor
  · refine Bool.eq_false_iff.mpr fun hend => ?_
    obtain rfl | rfl : c = '\n' ∨ c = '\r' := by simpa [isLineEnd] using hend
    all_goals exact absurd this (by decide)
  · refine Bool.eq_false_iff.mpr fun hdollar => ?_
    obtain ⟨-, rfl⟩ : escapes = true ∧ c = '$' := by simpa using hdollar
    exact absurd this (by decide)

theorem plain_isIdentChar (escapes : Bool) : Plain escapes isIdentChar :=
  plain_of_alphanum fun _ => id

theorem plain_isSimpleVarChar (escapes : Bool) : Plain escapes isSimpleVarChar :=
  plain_of_alphanum fun c hc => by
    obtain (h | h) | h : (c.isAlphanum ∨ c = '_') ∨ c = '-' := by simpa [isSimpleVarChar] using hc
    all_goals simp [h]

theorem plain_isPlain (mode : ValueMode) (escapes : Bool) : Plain escapes mode.isPlain := by
  intro c hc
  simp only [ValueMode.isPlain, Bool.and_eq_true, Bool.not_eq_true', decide_eq_true_eq] at hc
  simp [hc]

theorem plain_isInLine : Plain false isInLine := by
  simp [Plain, isInLine]

end Manifest

namespace Cursor

/-- Both cursors stand inside a line, of which the rest is the same. -/
structure SharesLine (escapes : Bool) (R : List Char → List Char → Prop) (c d : Cursor) : Prop where
  inside : c.atLineStart = false
  inside' : d.atLineStart = false
  rest : SameLine escapes R false c.rest d.rest

/-- Both cursors stand at the start of a line. -/
structure StartsLine (R : List Char → List Char → Prop) (c d : Cursor) : Prop where
  start : c.atLineStart = true
  start' : d.atLineStart = true
  rest : R c.rest d.rest

/-- Nothing is left for either cursor. -/
structure Finished (R : List Char → List Char → Prop) (c d : Cursor) : Prop where
  nil : c.rest = []
  nil' : d.rest = []
  rest : R [] []

/-- Both cursors are done with a line. -/
def EndsLine (R : List Char → List Char → Prop) (c d : Cursor) : Prop :=
  StartsLine R c d ∨ Finished R c d

/-- No comment comes next in the line. -/
def NoComment (c : Cursor) : Prop := (c.rest.dropWhile isSpace).head? ≠ some '#'

variable {escapes : Bool} {R : List Char → List Char → Prop} {c d : Cursor}

theorem SharesLine.skipWhile {p : Char → Bool} (h : SharesLine escapes R c d)
    (hp : Plain escapes p) : SharesLine escapes R (c.skipWhile p) (d.skipWhile p) :=
  ⟨h.inside, h.inside', (h.rest.takeWhile_dropWhile hp).2⟩

theorem SharesLine.takeWhile_eq {p : Char → Bool} (h : SharesLine escapes R c d)
    (hp : Plain escapes p) : c.rest.takeWhile p = d.rest.takeWhile p :=
  (h.rest.takeWhile_dropWhile hp).1

theorem rest_skip {ch : Char} {u : List Char} (h : c.rest = ch :: u) : c.skip.rest = u := by
  simp [skip, h]

theorem rest_skipWhile_of_nil {p : Char → Bool} (h : c.rest.takeWhile p = []) :
    (c.skipWhile p).rest = c.rest := by
  have happend := List.takeWhile_append_dropWhile (p := p) (l := c.rest)
  rwa [h] at happend

theorem atLineStart_skip (c : Cursor) : c.skip.atLineStart = c.atLineStart := by
  unfold skip
  split
  all_goals rfl

theorem SharesLine.skip {ch : Char} {u : List Char} (h : SharesLine escapes R c d)
    (hc : c.rest = ch :: u) (hin : isLineEnd ch = false) (hplain : (escapes && ch = '$') = false) :
    ∃ u', d.rest = ch :: u' ∧ SharesLine escapes R c.skip d.skip := by
  obtain ⟨u', hd, hu⟩ := (hc ▸ h.rest).cons hin
  refine ⟨u', hd, (atLineStart_skip c).trans h.inside, (atLineStart_skip d).trans h.inside', ?_⟩
  rwa [rest_skip hc, rest_skip hd, ← hplain]

theorem SharesLine.skip_skip {ch ch' : Char} {u : List Char} (h : SharesLine escapes R c d)
    (hc : c.rest = ch :: ch' :: u) (hin : isLineEnd ch = false ∧ isLineEnd ch' = false)
    (hplain : (escapes && ch = '$') = false ∧ (escapes && ch' = '$') = false) :
    ∃ u', d.rest = ch :: ch' :: u' ∧ SharesLine escapes R c.skip.skip d.skip.skip := by
  obtain ⟨v, hd, h⟩ := h.skip hc hin.1 hplain.1
  obtain ⟨w, hd', h⟩ := h.skip (rest_skip hc) hin.2 hplain.2
  rw [rest_skip hd] at hd'
  exact ⟨w, hd' ▸ hd, h⟩

theorem skipLineEnd_of_sameEnd {u u' : List Char} (h : SameEnd c.rest d.rest u u') :
    ∃ width, c.skipLineEnd = c.toNextLine width u ∧ d.skipLineEnd = d.toNextLine width u' := by
  generalize hc : c.rest = t at h
  generalize hd : d.rest = t' at h
  cases h with
  | lf => exact ⟨1, by simp [skipLineEnd, hc], by simp [skipLineEnd, hd]⟩
  | crlf => exact ⟨2, by simp [skipLineEnd, hc], by simp [skipLineEnd, hd]⟩
  | cr hu hu' =>
    have hwidth {c : Cursor} {u : List Char} (hu : u.head? ≠ some '\n') (hc : c.rest = '\r' :: u) :
        c.skipLineEnd = c.toNextLine 1 u := by
      cases u with
      | nil => simp [skipLineEnd, hc]
      | cons ch u =>
        have : ch ≠ '\n' := by simpa using hu
        simp [skipLineEnd, hc, this]
    exact ⟨1, hwidth hu hc, hwidth hu' hd⟩

/-- Where the cursors are after a token of a line. -/
def After (escapes : Bool) (R : List Char → List Char → Prop) (kind : TokenKind) :
    Cursor → Cursor → Prop :=
  match kind with
  | .newline => StartsLine R
  | .eof => Finished R
  | _ => SharesLine escapes R

theorem after_word (word : String) :
    After escapes R ((TokenKind.keyword? word).getD .ident) = SharesLine escapes R := by
  unfold TokenKind.keyword?
  repeat' split
  all_goals rfl

/-- The cursor stands at the end of a line or of the text. -/
def AtEnd (c : Cursor) : Prop := ∀ ch ∈ c.rest.head?, isLineEnd ch = true

theorem lineEndToken_eq (h : SameLine escapes R false c.rest d.rest) (hc : AtEnd c) :
    ∃ kind c' d', (kind = .newline ∨ kind = .eof) ∧ c.lineEndToken = .ok (c.token kind []) c' ∧
      d.lineEndToken = .ok (d.token kind []) d' ∧ After escapes R kind c' d' := by
  obtain ⟨hnil, hnil', h⟩ | ⟨u, u', hend, h⟩ | ⟨ch, u, u', hch, hu, -, -⟩ := h.front
  · exact ⟨.eof, c, d, .inr rfl, by simp [lineEndToken, hnil], by simp [lineEndToken, hnil'],
      ⟨hnil, hnil', h⟩⟩
  · obtain ⟨width, hskip, hskip'⟩ := skipLineEnd_of_sameEnd hend
    obtain ⟨ch, v, v', hv, hv', -⟩ := hend.front
    exact ⟨.newline, c.toNextLine width u, d.toNextLine width u', .inl rfl,
      by simp [lineEndToken, hv, hskip], by simp [lineEndToken, hv', hskip'], ⟨rfl, rfl, h⟩⟩
  · simp [hc ch (by simp [hu])] at hch

theorem tokenInLine_of_atEnd (h : AtEnd (c.skipWhile isSpace)) :
    c.tokenInLine = (c.skipWhile isSpace).lineEndToken := by
  unfold tokenInLine
  dsimp only
  have hfront {ch : Char} {u : List Char} (hu : (c.skipWhile isSpace).rest = ch :: u) :
      isLineEnd ch = true := h ch (by rw [hu]; rfl)
  split
  case h_1 => rfl
  case h_8 hu => rw [if_pos (hfront hu)]
  all_goals next hu => exact absurd (hfront hu) (by decide)

theorem tokenInLine_of_comment {u : List Char} (h : (c.skipWhile isSpace).rest = '#' :: u) :
    c.tokenInLine = ((c.skipWhile isSpace).skipWhile isInLine).lineEndToken := by
  unfold tokenInLine
  dsimp only
  rw [h]
  rfl

theorem tokenInLine_of_pipe {u : List Char} (h : (c.skipWhile isSpace).rest = '|' :: u)
    (hbar : u.head? ≠ some '|') (hat : u.head? ≠ some '@') :
    c.tokenInLine = .ok ((c.skipWhile isSpace).token .pipe ['|']) (c.skipWhile isSpace).skip := by
  unfold tokenInLine
  dsimp only
  rw [h]
  split
  case h_4 hu => cases hu; exact absurd rfl hbar
  case h_5 hu => cases hu; exact absurd rfl hat
  case h_6 => rfl
  case h_8 hne _ hu => cases hu; exact absurd rfl hne
  all_goals next hu => cases hu

theorem tokenInLine_of_word {ch : Char} {u : List Char}
    (h : (c.skipWhile isSpace).rest = ch :: u) (hch : isIdentChar ch = true) :
    c.tokenInLine = .ok ((c.skipWhile isSpace).token
      ((TokenKind.keyword? (String.ofList ((c.skipWhile isSpace).rest.takeWhile isIdentChar))).getD
        .ident) ((c.skipWhile isSpace).rest.takeWhile isIdentChar))
      ((c.skipWhile isSpace).skipWhile isIdentChar) := by
  have hend := (plain_isIdentChar false ch hch).1
  unfold tokenInLine
  dsimp only
  split
  case h_1 hu => simp [h] at hu
  case h_8 hu =>
    rw [h] at hu
    cases hu
    rw [hend, hch]
    rfl
  all_goals next hu => rw [h] at hu; cases hu; exact absurd hch (by decide)

theorem atEnd_skipWhile_isInLine (c : Cursor) : AtEnd (c.skipWhile isInLine) := by
  intro ch hch
  simpa [isInLine] using eq_false_of_head?_dropWhile hch

/-- In a line that is shared both cursors read the same token, unless there is a comment that could
hide an escape. -/
theorem SharesLine.tokenInLine {token : Token} {c' : Cursor} (h : SharesLine escapes R c d)
    (hc : escapes = true → NoComment c) (hread : c.tokenInLine = .ok token c') :
    ∃ token' d', d.tokenInLine = .ok token' d' ∧ token.kind = token'.kind ∧
      After escapes R token.kind c' d' := by
  replace h := h.skipWhile (plain_isSpace escapes)
  by_cases hend : AtEnd (c.skipWhile isSpace)
  · have hend' : AtEnd (d.skipWhile isSpace) := by
      rwa [AtEnd, ← h.rest.head?_eq]
    obtain ⟨kind, e, e', -, he, he', hafter⟩ := lineEndToken_eq h.rest hend
    rw [tokenInLine_of_atEnd hend, he] at hread
    cases hread
    exact ⟨_, e', (tokenInLine_of_atEnd hend').trans he', rfl, hafter⟩
  unfold Cursor.tokenInLine at hread
  dsimp only at hread
  split at hread
  · next hu => simp [AtEnd, hu] at hend
  · next u hu =>
    obtain ⟨u', hd, h⟩ := h.skip hu rfl (by simp)
    cases hread
    exact ⟨(d.skipWhile isSpace).token .colon [':'], _, by rw [Cursor.tokenInLine, hd]; rfl,
      rfl, h⟩
  · next u hu =>
    obtain ⟨u', hd, h⟩ := h.skip hu rfl (by simp)
    cases hread
    exact ⟨(d.skipWhile isSpace).token .equals ['='], _, by rw [Cursor.tokenInLine, hd]; rfl,
      rfl, h⟩
  · next u hu =>
    obtain ⟨w, hd, h⟩ := h.skip_skip hu ⟨rfl, rfl⟩ (by simp)
    cases hread
    exact ⟨(d.skipWhile isSpace).token .pipe2 ['|', '|'], _, by rw [Cursor.tokenInLine, hd]; rfl,
      rfl, h⟩
  · next u hu =>
    obtain ⟨w, hd, h⟩ := h.skip_skip hu ⟨rfl, rfl⟩ (by simp)
    cases hread
    exact ⟨(d.skipWhile isSpace).token .pipeAt ['|', '@'], _, by rw [Cursor.tokenInLine, hd]; rfl,
      rfl, h⟩
  · next u hbar hat hu =>
    obtain ⟨v, hd, h⟩ := h.skip hu rfl (by simp)
    have hhead := h.rest.head?_eq
    rw [rest_skip hu, rest_skip hd] at hhead
    cases hread
    refine ⟨(d.skipWhile isSpace).token .pipe ['|'], _,
      tokenInLine_of_pipe hd (fun hv => ?_) (fun hv => ?_), rfl, h⟩
    · obtain ⟨u, rfl⟩ := List.head?_eq_some_iff.mp (hhead.trans hv)
      exact hbar u rfl
    · obtain ⟨u, rfl⟩ := List.head?_eq_some_iff.mp (hhead.trans hv)
      exact hat u rfl
  · next u hu =>
    have hescapes : escapes = false := by
      refine Bool.eq_false_iff.mpr fun hescapes => hc hescapes ?_
      exact congrArg List.head? hu
    subst hescapes
    obtain ⟨u', hd, -⟩ := h.skip hu rfl (by simp)
    obtain ⟨kind, e, e', -, he, he', hafter⟩ :=
      lineEndToken_eq (h.skipWhile plain_isInLine).rest (atEnd_skipWhile_isInLine _)
    rw [he] at hread
    cases hread
    exact ⟨_, e', (tokenInLine_of_comment hd).trans he', rfl, hafter⟩
  · next ch u _ _ _ _ _ hcomment hu =>
    split at hread
    · next hch => exact absurd (fun ch' hch' => by rw [hu] at hch'; cases hch'; exact hch) hend
    split at hread
    · next hch =>
      have hword := h.takeWhile_eq (plain_isIdentChar escapes)
      have hhead := h.rest.head?_eq
      rw [hu] at hhead
      obtain ⟨u', hd⟩ := List.head?_eq_some_iff.mp hhead.symm
      cases hread
      refine ⟨_, _, tokenInLine_of_word hd hch, ?_, ?_⟩
      · simp only [Cursor.token, hword]
      · rw [Cursor.token, after_word]
        exact h.skipWhile (plain_isIdentChar escapes)
    · cases hread

theorem kind_lineEndToken {token : Token} {c' : Cursor} (h : c.lineEndToken = .ok token c') :
    token.kind = .newline ∨ token.kind = .eof := by
  unfold lineEndToken at h
  split at h
  · cases h; exact .inr rfl
  · cases h; exact .inl rfl

/-- A comment is followed by the end of its line. -/
theorem noComment_of_kind {token : Token} {c' : Cursor} (h : c.tokenInLine = .ok token c')
    (hkind : ¬(token.kind = .newline ∨ token.kind = .eof)) : NoComment c := by
  intro hfront
  obtain ⟨u, hu⟩ := List.head?_eq_some_iff.mp hfront
  rw [tokenInLine_of_comment hu] at h
  exact hkind (kind_lineEndToken h)

/-! ## Reading goes forward -/

theorem offset_skipWhile_eq_iff {p : Char → Bool} :
    (c.skipWhile p).offset = c.offset ↔ c.rest.takeWhile p = [] := by
  cases h : c.rest.takeWhile p with
  | nil => simp [skipWhile, h, Utf8.size]
  | cons ch u =>
    have := ch.utf8Size_pos
    simp [skipWhile, h, Utf8.size]
    omega

theorem length_skipWhile_lt_of_ne {p : Char → Bool} (h : c.rest.takeWhile p ≠ []) :
    (c.skipWhile p).rest.length < c.rest.length := by
  have hlength := congrArg List.length (List.takeWhile_append_dropWhile (p := p) (l := c.rest))
  have hpos := List.length_pos_iff.mpr h
  rw [List.length_append] at hlength
  show (c.rest.dropWhile p).length < c.rest.length
  omega

/-- A token was read from what was left before, which is less now unless it was nothing. -/
def Forward (c : Cursor) (kind : TokenKind) (c' : Cursor) : Prop :=
  c'.rest.length ≤ c.rest.length ∧ (kind ≠ .eof → c'.rest.length < c.rest.length)

theorem Forward.of_lt {kind : TokenKind} {c' : Cursor} (h : c'.rest.length < c.rest.length) :
    Forward c kind c' :=
  ⟨Nat.le_of_lt h, fun _ => h⟩

theorem Forward.of_le {kind : TokenKind} {c' e : Cursor} (h : Forward e kind c')
    (hle : e.rest.length ≤ c.rest.length) : Forward c kind c' :=
  ⟨Nat.le_trans h.1 hle, fun hkind => Nat.lt_of_lt_of_le (h.2 hkind) hle⟩

theorem length_skipLineEnd_lt {ch : Char} {u : List Char} (h : c.rest = ch :: u)
    (hch : isLineEnd ch = true) : c.skipLineEnd.rest.length < c.rest.length := by
  unfold skipLineEnd
  split
  · next rest hu =>
    rw [hu]
    show rest.length < rest.length + 2
    omega
  · next hu => simp [toNextLine, hu]
  · next hu => simp [toNextLine, hu]
  · next hcr hlf =>
    obtain rfl | rfl : ch = '\n' ∨ ch = '\r' := by simpa [isLineEnd] using hch
    · exact absurd h (hlf u)
    · exact absurd h (hcr u)

theorem forward_lineEndToken {token : Token} {c' : Cursor} (h : c.lineEndToken = .ok token c')
    (hc : AtEnd c) : Forward c token.kind c' := by
  unfold lineEndToken at h
  split at h
  · cases h
    exact ⟨Nat.le_refl _, fun h => absurd rfl h⟩
  · next hne =>
    cases h
    obtain ⟨ch, u, hu⟩ := List.exists_cons_of_ne_nil hne
    exact .of_lt (length_skipLineEnd_lt hu (hc ch (by rw [hu]; rfl)))

theorem forward_tokenInLine {token : Token} {c' : Cursor} (h : c.tokenInLine = .ok token c') :
    Forward c token.kind c' := by
  refine Forward.of_le (e := c.skipWhile isSpace) ?_ (length_skipWhile_le ..)
  unfold tokenInLine at h
  dsimp only at h
  generalize c.skipWhile isSpace = c at h
  split at h
  · next hu => exact forward_lineEndToken h (by simp [AtEnd, hu])
  · next hu => cases h; exact .of_lt (length_skip_lt hu)
  · next hu => cases h; exact .of_lt (length_skip_lt hu)
  · next hu =>
    cases h
    exact .of_lt (Nat.lt_of_le_of_lt (length_skip_le _) (length_skip_lt hu))
  · next hu =>
    cases h
    exact .of_lt (Nat.lt_of_le_of_lt (length_skip_le _) (length_skip_lt hu))
  · next hu => cases h; exact .of_lt (length_skip_lt hu)
  · exact (forward_lineEndToken h (atEnd_skipWhile_isInLine c)).of_le (length_skipWhile_le ..)
  · next hu =>
    split at h
    · next hend => exact forward_lineEndToken h (by simpa [AtEnd, hu] using hend)
    split at h
    · next hch => cases h; exact .of_lt (length_skipWhile_lt hu hch)
    · cases h

theorem forward_nextToken {token : Token} {c' : Cursor} (h : c.nextToken = .ok token c') :
    Forward c token.kind c' := by
  fun_induction nextToken c with
  | case1 c _ d hfront =>
    exact (forward_lineEndToken h (by simp [AtEnd, hfront])).of_le (length_skipWhile_le ..)
  | case2 c _ d u hfront ih =>
    exact (ih h).of_le (Nat.le_trans (length_skipLineEnd_le _) (Nat.le_trans
      (length_skipWhile_le ..) (length_skipWhile_le ..)))
  | case3 c _ d ch u hfront _ hend =>
    exact (forward_lineEndToken h (by simpa [AtEnd, hfront] using hend)).of_le
      (length_skipWhile_le ..)
  | case4 c _ d ch u hfront _ _ hspaces =>
    cases h
    exact .of_lt (length_skipWhile_lt_of_ne (mt offset_skipWhile_eq_iff.mpr hspaces))
  | case5 c _ d ch u hfront _ _ _ =>
    exact (forward_tokenInLine h).of_le (length_skipWhile_le isSpace c)
  | case6 c => exact forward_tokenInLine h

end Cursor

end Rebuild
