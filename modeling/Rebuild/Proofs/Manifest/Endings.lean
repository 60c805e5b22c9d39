import Rebuild.Proofs.Manifest.Tokens
import Rebuild.Proofs.Manifest.Values

/-!
# Texts whose lines end differently

Two texts are the same but for how their lines end: where one has a line feed, the other may have a
carriage return, or both characters. Cursors that stand abreast in such texts read the same tokens,
names and values, report the same places, and fail alike. Only their distances from the start of the
text may differ.
-/

namespace Rebuild

open Manifest

namespace Manifest

/-- The same text but for how lines end. A line end in front of `text` is written as
`SameEnd text text rest rest`. -/
inductive SameText : List Char → List Char → Prop where
  | nil : SameText [] []
  | char {c u u'} : isLineEnd c = false → SameText u u' → SameText (c :: u) (c :: u')
  | lineEnd {t t' u u'} : SameEnd t t u u → SameEnd t' t' u' u' → SameText u u' → SameText t t'

variable {text text' : List Char} {p : Char → Bool}

/-- The characters that satisfy `p` end no line. -/
def InLine (p : Char → Bool) : Prop := ∀ c, p c = true → isLineEnd c = false

theorem Plain.inLine {escapes : Bool} (h : Plain escapes p) : InLine p := fun c hc => (h c hc).1

theorem inLine_isInLine : InLine isInLine := plain_isInLine.inLine

theorem inLine_isSpace : InLine isSpace := (plain_isSpace false).inLine

theorem inLine_isIdentChar : InLine isIdentChar := (plain_isIdentChar false).inLine

theorem InLine.stop (hp : InLine p) {c : Char} (hc : isLineEnd c = true) : p c = false :=
  Bool.eq_false_iff.mpr fun hpc => by simp [hp c hpc] at hc

/-- A text begins with a line end, after which `rest` is left. -/
theorem exists_sameEnd {c : Char} (hc : isLineEnd c = true) (rest : List Char) :
    ∃ rest', SameEnd (c :: rest) (c :: rest) rest' rest' := by
  obtain rfl | rfl : c = '\n' ∨ c = '\r' := by simpa [isLineEnd] using hc
  · exact ⟨rest, .lf rest rest⟩
  · by_cases hlf : rest.head? = some '\n'
    · obtain ⟨rest', rfl⟩ := List.head?_eq_some_iff.mp hlf
      exact ⟨rest', .crlf rest' rest'⟩
    · exact ⟨rest, .cr hlf hlf⟩

namespace SameText

theorem refl (text : List Char) : SameText text text := by
  induction hlength : text.length using Nat.strongRecOn generalizing text with
  | ind n ih =>
    subst hlength
    cases text with
    | nil => exact .nil
    | cons c rest =>
      by_cases hc : isLineEnd c = true
      · obtain ⟨rest', hend⟩ := exists_sameEnd hc rest
        exact .lineEnd hend hend (ih _ hend.length_eq.1 rest' rfl)
      · exact .char (by simpa using hc) (ih _ (Nat.lt_succ_self _) rest rfl)

theorem takeWhile_dropWhile (h : SameText text text') (hp : InLine p) :
    text.takeWhile p = text'.takeWhile p ∧ SameText (text.dropWhile p) (text'.dropWhile p) := by
  induction h with
  | nil => exact ⟨rfl, .nil⟩
  | @char c u u' hc h ih =>
    by_cases hpc : p c = true
    · simp only [List.takeWhile_cons, List.dropWhile_cons, hpc, if_true]
      exact ⟨congrArg (c :: ·) ih.1, ih.2⟩
    · simp only [List.takeWhile_cons, List.dropWhile_cons, hpc]
      exact ⟨rfl, .char hc h⟩
  | lineEnd hend hend' h =>
    obtain ⟨c, u, -, rfl, -, hc⟩ := hend.front
    obtain ⟨c', u', -, rfl, -, hc'⟩ := hend'.front
    simp only [List.takeWhile_cons, List.dropWhile_cons, hp.stop hc, hp.stop hc']
    exact ⟨rfl, .lineEnd hend hend' h⟩

/-- What two such texts have in front. -/
theorem front (h : SameText text text') :
    (text = [] ∧ text' = []) ∨
    (∃ u u', SameEnd text text u u ∧ SameEnd text' text' u' u' ∧ SameText u u') ∨
    ∃ c u u', isLineEnd c = false ∧ text = c :: u ∧ text' = c :: u' ∧ SameText u u' := by
  cases h with
  | nil => exact .inl ⟨rfl, rfl⟩
  | lineEnd hend hend' h => exact .inr (.inl ⟨_, _, hend, hend', h⟩)
  | char hc h => exact .inr (.inr ⟨_, _, _, hc, rfl, rfl, h⟩)

theorem cons {c : Char} {u : List Char} (h : SameText (c :: u) text') (hc : isLineEnd c = false) :
    ∃ u', text' = c :: u' ∧ SameText u u' := by
  obtain ⟨hu, -⟩ | ⟨v, v', hend, -, -⟩ | ⟨_, _, u', -, hu, rfl, h⟩ := h.front
  · cases hu
  · obtain ⟨_, _, _, hu, -, hend⟩ := hend.front
    cases hu
    rw [hc] at hend
    cases hend
  · cases hu
    exact ⟨u', rfl, h⟩

/-- A character that ends no line stands in front of both texts or of neither. -/
theorem head?_eq_some_iff (h : SameText text text') {c : Char} (hc : isLineEnd c = false) :
    text.head? = some c ↔ text'.head? = some c := by
  obtain ⟨rfl, rfl⟩ | ⟨u, u', hend, hend', -⟩ | ⟨_, u, u', -, rfl, rfl, -⟩ := h.front
  · rfl
  · obtain ⟨d, v, -, rfl, -, hd⟩ := hend.front
    obtain ⟨d', v', -, rfl, -, hd'⟩ := hend'.front
    constructor
    · rintro ⟨⟩
      simp [hd] at hc
    · rintro ⟨⟩
      simp [hd'] at hc
  · rfl

end SameText

end Manifest

/-- The same token, except for its distance from the start of the text. -/
def Token.SameAs (t t' : Token) : Prop :=
  t.kind = t'.kind ∧ t.location = t'.location ∧ t.text = t'.text

namespace Cursor

/-- Two cursors stand at the same place of texts whose lines end differently. -/
structure Abreast (c d : Cursor) : Prop where
  rest : SameText c.rest d.rest
  line : c.line = d.line
  column : ∃ n, c.offset = c.lineStart + n ∧ d.offset = d.lineStart + n
  start : c.atLineStart = d.atLineStart

/-- Both cursors read the same and go on abreast, or both find the same fault. -/
def Agree {α : Type} (V : α → α → Prop) : Outcome α → Outcome α → Prop
  | .ok a c, .ok b d => V a b ∧ c.Abreast d
  | .error fault _, .error fault' _ => fault = fault'
  | _, _ => False

theorem Agree.cases {α : Type} {first second : Outcome α} (h : Agree Eq first second) :
    (∃ a c d, first = .ok a c ∧ second = .ok a d ∧ c.Abreast d) ∨
      ∃ fault c d, first = .error fault c ∧ second = .error fault d := by
  cases first with
  | ok a c =>
    cases second with
    | ok b d =>
      obtain ⟨rfl, h⟩ := h
      exact .inl ⟨a, c, d, rfl, rfl, h⟩
    | error => exact h.elim
  | error fault c =>
    cases second with
    | ok => exact h.elim
    | error fault' d =>
      obtain rfl : fault = fault' := h
      exact .inr ⟨fault, c, d, rfl, rfl⟩

variable {c d : Cursor} {p : Char → Bool}

theorem Abreast.refl (h : c.lineStart ≤ c.offset) : c.Abreast c :=
  ⟨.refl _, rfl, ⟨c.offset - c.lineStart, by omega, by omega⟩, rfl⟩

theorem Abreast.location (h : c.Abreast d) : c.location = d.location := by
  obtain ⟨n, hc, hd⟩ := h.column
  simp [Cursor.location, h.line, hc, hd]

theorem Abreast.inLine (h : c.Abreast d) : c.inLine.Abreast d.inLine :=
  ⟨h.rest, h.line, h.column, rfl⟩

theorem Abreast.skipWhile (h : c.Abreast d) (hp : InLine p) :
    (c.skipWhile p).Abreast (d.skipWhile p) := by
  obtain ⟨hword, hrest⟩ := h.rest.takeWhile_dropWhile hp
  obtain ⟨n, hc, hd⟩ := h.column
  refine ⟨hrest, h.line, ⟨n + Utf8.size (c.rest.takeWhile p), ?_, ?_⟩, h.start⟩
  · simp only [Cursor.skipWhile, hc]
    omega
  · simp only [Cursor.skipWhile, hd, hword]
    omega

theorem Abreast.takeWhile_eq (h : c.Abreast d) (hp : InLine p) :
    c.rest.takeWhile p = d.rest.takeWhile p :=
  (h.rest.takeWhile_dropWhile hp).1

theorem Abreast.skip {ch : Char} {u u' : List Char} (h : c.Abreast d) (hc : c.rest = ch :: u)
    (hd : d.rest = ch :: u') (hu : SameText u u') : c.skip.Abreast d.skip := by
  obtain ⟨n, hcn, hdn⟩ := h.column
  refine ⟨by rwa [rest_skip hc, rest_skip hd], ?_, ⟨n + ch.utf8Size, ?_, ?_⟩, ?_⟩
  · simp [Cursor.skip, hc, hd, h.line]
  · simp [Cursor.skip, hc, hcn, Nat.add_assoc]
  · simp [Cursor.skip, hd, hdn, Nat.add_assoc]
  · rw [atLineStart_skip, atLineStart_skip, h.start]

theorem Abreast.toNextLine (h : c.Abreast d) {u u' : List Char} (hu : SameText u u')
    (width width' : Nat) : (c.toNextLine width u).Abreast (d.toNextLine width' u') :=
  ⟨hu, by simp [Cursor.toNextLine, h.line], ⟨0, rfl, rfl⟩, rfl⟩

theorem skipLineEnd_of_not_lineEnd (h : ∀ ch ∈ c.rest.head?, isLineEnd ch = false) :
    c.skipLineEnd = c := by
  unfold skipLineEnd
  split
  · next hu => simp [hu, isLineEnd] at h
  · next hu => simp [hu, isLineEnd] at h
  · next hu => simp [hu, isLineEnd] at h
  · rfl

theorem Abreast.skipLineEnd (h : c.Abreast d) : c.skipLineEnd.Abreast d.skipLineEnd := by
  obtain ⟨hc, hd⟩ | ⟨u, u', hend, hend', hu⟩ | ⟨ch, u, u', hch, hc, hd, -⟩ := h.rest.front
  · rwa [skipLineEnd_of_not_lineEnd (by simp [hc]), skipLineEnd_of_not_lineEnd (by simp [hd])]
  · obtain ⟨width, hskip, -⟩ := skipLineEnd_of_sameEnd hend
    obtain ⟨width', hskip', -⟩ := skipLineEnd_of_sameEnd hend'
    rw [hskip, hskip']
    exact h.toNextLine hu width width'
  · rwa [skipLineEnd_of_not_lineEnd (by simp [hc, hch]),
      skipLineEnd_of_not_lineEnd (by simp [hd, hch])]

/-! ## Tokens -/

theorem Abreast.atEnd (h : c.Abreast d) (hc : AtEnd c) : AtEnd d := by
  obtain ⟨-, hd⟩ | ⟨u, u', -, hend, -⟩ | ⟨ch, u, u', hch, hcu, -, -⟩ := h.rest.front
  · simp [AtEnd, hd]
  · obtain ⟨ch, v, -, hd, -, hch⟩ := hend.front
    simpa [AtEnd, hd] using hch
  · simp [hc ch (by simp [hcu])] at hch

/-- A character that ends no line stands in front of both cursors. -/
theorem Abreast.exists_char (h : c.Abreast d) (hc : ¬AtEnd c) : ∃ ch u u', isLineEnd ch = false ∧
    c.rest = ch :: u ∧ d.rest = ch :: u' ∧ SameText u u' := by
  obtain ⟨hnil, -⟩ | ⟨u, u', hend, -, -⟩ | hchar := h.rest.front
  · simp [AtEnd, hnil] at hc
  · obtain ⟨ch, v, -, hv, -, hch⟩ := hend.front
    simp [AtEnd, hv, hch] at hc
  · exact hchar

theorem Abreast.token (h : c.Abreast d) (kind : TokenKind) {text text' : List Char}
    (htext : text = text') : (c.token kind text).SameAs (d.token kind text') :=
  ⟨rfl, h.location, htext⟩

theorem Abreast.lineEndToken (h : c.Abreast d) (hc : AtEnd c) :
    Agree Token.SameAs c.lineEndToken d.lineEndToken := by
  obtain ⟨hnil, hnil'⟩ | ⟨u, u', hend, hend', hu⟩ | ⟨ch, u, u', hch, hcu, -, -⟩ := h.rest.front
  · simp only [Cursor.lineEndToken, hnil, hnil']
    exact ⟨h.token .eof rfl, h⟩
  · obtain ⟨ch, v, -, hv, -, -⟩ := hend.front
    obtain ⟨ch', v', -, hv', -, -⟩ := hend'.front
    simp only [Cursor.lineEndToken, hv, hv']
    exact ⟨h.token .newline rfl, h.skipLineEnd⟩
  · simp [hc ch (by simp [hcu])] at hch

/-- What the token is that begins with a character that ends no line. -/
private theorem tokenInLine_of_char {ch : Char} {u : List Char}
    (h : (c.skipWhile isSpace).rest = ch :: u) (hend : isLineEnd ch = false)
    (hcolon : ch ≠ ':') (hequals : ch ≠ '=') (hbar : ch ≠ '|') (hcomment : ch ≠ '#')
    (hword : isIdentChar ch = false) :
    c.tokenInLine = (c.skipWhile isSpace).fail (.unexpectedChar ch) := by
  unfold Cursor.tokenInLine
  dsimp only
  split
  case h_1 hu => simp [h] at hu
  case h_8 hu =>
    rw [h] at hu
    cases hu
    simp [hend, hword]
  all_goals next hu => rw [h] at hu; cases hu; contradiction

theorem Abreast.tokenInLine (h : c.Abreast d) :
    Agree Token.SameAs c.tokenInLine d.tokenInLine := by
  replace h := h.skipWhile inLine_isSpace
  by_cases hend : AtEnd (c.skipWhile isSpace)
  · rw [tokenInLine_of_atEnd hend, tokenInLine_of_atEnd (h.atEnd hend)]
    exact h.lineEndToken hend
  obtain ⟨ch, u, u', hch, hc, hd, hu⟩ := h.exists_char hend
  have hskip := h.skip hc hd hu
  by_cases hcolon : ch = ':'
  · subst hcolon
    rw [Cursor.tokenInLine, Cursor.tokenInLine, hc, hd]
    exact ⟨h.token .colon rfl, hskip⟩
  by_cases hequals : ch = '='
  · subst hequals
    rw [Cursor.tokenInLine, Cursor.tokenInLine, hc, hd]
    exact ⟨h.token .equals rfl, hskip⟩
  by_cases hbar : ch = '|'
  · subst hbar
    have hsecond {c₂ : Char} (hc₂ : isLineEnd c₂ = false) (hfront : u.head? = some c₂) :
        ∃ v v', u = c₂ :: v ∧ u' = c₂ :: v' ∧
          (c.skipWhile isSpace).skip.skip.Abreast (d.skipWhile isSpace).skip.skip := by
      obtain ⟨v, rfl⟩ := List.head?_eq_some_iff.mp hfront
      obtain ⟨v', rfl, hv⟩ := hu.cons hc₂
      exact ⟨v, v', rfl, rfl, hskip.skip (rest_skip hc) (rest_skip hd) hv⟩
    by_cases hpipe2 : u.head? = some '|'
    · obtain ⟨v, v', rfl, rfl, hskip⟩ := hsecond rfl hpipe2
      rw [Cursor.tokenInLine, Cursor.tokenInLine, hc, hd]
      exact ⟨h.token .pipe2 rfl, hskip⟩
    by_cases hpipeAt : u.head? = some '@'
    · obtain ⟨v, v', rfl, rfl, hskip⟩ := hsecond rfl hpipeAt
      rw [Cursor.tokenInLine, Cursor.tokenInLine, hc, hd]
      exact ⟨h.token .pipeAt rfl, hskip⟩
    rw [tokenInLine_of_pipe hc hpipe2 hpipeAt, tokenInLine_of_pipe hd
      (mt (hu.head?_eq_some_iff rfl).mpr hpipe2) (mt (hu.head?_eq_some_iff rfl).mpr hpipeAt)]
    exact ⟨h.token .pipe rfl, hskip⟩
  by_cases hcomment : ch = '#'
  · subst hcomment
    rw [tokenInLine_of_comment hc, tokenInLine_of_comment hd]
    exact (h.skipWhile inLine_isInLine).lineEndToken (atEnd_skipWhile_isInLine _)
  by_cases hword : isIdentChar ch = true
  · rw [tokenInLine_of_word hc hword, tokenInLine_of_word hd hword,
      h.takeWhile_eq inLine_isIdentChar]
    exact ⟨h.token _ rfl, h.skipWhile inLine_isIdentChar⟩
  · rw [Bool.not_eq_true] at hword
    rw [tokenInLine_of_char hc hch hcolon hequals hbar hcomment hword,
      tokenInLine_of_char hd hch hcolon hequals hbar hcomment hword]
    simp only [Agree, Cursor.fail, h.location]

theorem Abreast.nextToken (h : c.Abreast d) : Agree Token.SameAs c.nextToken d.nextToken := by
  induction hlength : c.rest.length using Nat.strongRecOn generalizing c d with
  | ind n ih =>
    subst hlength
    cases hs : c.atLineStart with
    | false =>
      rw [nextToken_inside hs, nextToken_inside (h.start ▸ hs)]
      exact h.tokenInLine
    | true =>
      have hs' : d.atLineStart = true := h.start ▸ hs
      have hspaces := h.takeWhile_eq inLine_isSpace
      have hskip := h.skipWhile inLine_isSpace
      by_cases hend : AtEnd (c.skipWhile isSpace)
      · rw [nextToken_of_atEnd hs hend, nextToken_of_atEnd hs' (hskip.atEnd hend)]
        exact hskip.lineEndToken hend
      obtain ⟨ch, u, u', hch, hc, hd, -⟩ := hskip.exists_char hend
      have hend' : ¬AtEnd (d.skipWhile isSpace) := by simp [AtEnd, hd, hch]
      by_cases hcomment : ch = '#'
      · subst hcomment
        rw [nextToken_of_comment hs hc, nextToken_of_comment hs' hd]
        refine ih _ ?_ (hskip.skipWhile inLine_isInLine).skipLineEnd rfl
        calc ((c.skipWhile isSpace).skipWhile isInLine).skipLineEnd.rest.length
            ≤ ((c.skipWhile isSpace).skipWhile isInLine).rest.length := length_skipLineEnd_le _
          _ < (c.skipWhile isSpace).rest.length := length_skipWhile_lt hc rfl
          _ ≤ c.rest.length := length_skipWhile_le ..
      have hno {e : Cursor} {v : List Char} (he : (e.skipWhile isSpace).rest = ch :: v) :
          NoComment e := by
        rw [NoComment, show e.rest.dropWhile isSpace = ch :: v from he]
        simpa using hcomment
      by_cases hnil : c.rest.takeWhile isSpace = []
      · rw [nextToken_of_text hs hend (hno hc) hnil,
          nextToken_of_text hs' hend' (hno hd) (hspaces ▸ hnil)]
        exact hskip.inLine.tokenInLine
      · rw [nextToken_of_indent hs hend (hno hc) hnil,
          nextToken_of_indent hs' hend' (hno hd) (hspaces ▸ hnil)]
        exact ⟨h.token .indent hspaces, hskip.inLine⟩

/-! ## Names and values -/

theorem Abreast.ident (h : c.Abreast d) : Agree Eq c.ident d.ident := by
  replace h := h.inLine.skipWhile inLine_isSpace
  have hword := h.takeWhile_eq inLine_isIdentChar
  unfold Cursor.ident
  dsimp only
  rw [← hword]
  split
  · simp only [Agree, Cursor.fail, h.location]
  · exact ⟨rfl, h.skipWhile inLine_isIdentChar⟩

private theorem escape_of_other {ch : Char} {v : List Char} (t : Template)
    (h : c.skip.rest = ch :: v) (hend : isLineEnd ch = false) (hdollar : ch ≠ '$')
    (hspace : ch ≠ ' ') (hcolon : ch ≠ ':') (hbrace : ch ≠ '\x7b')
    (hvar : isSimpleVarChar ch = false) :
    c.escape t = .error ⟨c.location, .badEscape⟩ c.skip := by
  unfold Cursor.escape
  dsimp only
  rw [h]
  split
  case h_5 hu =>
    cases hu
    simp [hend, hvar]
  case h_6 hu => cases hu
  all_goals next hu => cases hu; contradiction

private theorem escape_of_emptyBrace {v w : List Char} (t : Template) (h : c.skip.rest = '\x7b' :: v)
    (hname : c.skip.skip.rest.takeWhile isIdentChar = [])
    (hclose : (c.skip.skip.skipWhile isIdentChar).rest = '\x7d' :: w) :
    c.escape t = .error ⟨c.location, .badEscape⟩ (c.skip.skip.skipWhile isIdentChar) := by
  unfold Cursor.escape
  dsimp only
  rw [h]
  simp only [hclose]
  rw [if_pos (by simp [hname])]

private theorem escape_of_openBrace {v : List Char} (t : Template) (h : c.skip.rest = '\x7b' :: v)
    (hopen : (c.skip.skip.skipWhile isIdentChar).rest.head? ≠ some '\x7d') :
    c.escape t = (c.skip.skip.skipWhile isIdentChar).fail .unterminatedBrace := by
  unfold Cursor.escape
  dsimp only
  rw [h]
  simp only
  split
  · next hclose => exact absurd (congrArg List.head? hclose) hopen
  · rfl

/-- A name between braces is the same for both, and so is what is wrong with it. -/
private theorem Abreast.escape_brace {v v' : List Char} (t : Template)
    (hplace : c.location = d.location) (h : c.skip.skip.Abreast d.skip.skip)
    (hc : c.skip.rest = '\x7b' :: v) (hd : d.skip.rest = '\x7b' :: v') :
    Agree Eq (c.escape t) (d.escape t) := by
  have hname := h.takeWhile_eq inLine_isIdentChar
  have hclose := h.skipWhile inLine_isIdentChar
  have hbrace := hclose.rest.head?_eq_some_iff (c := '\x7d') rfl
  by_cases hfront : (c.skip.skip.skipWhile isIdentChar).rest.head? = some '\x7d'
  · obtain ⟨w, hw⟩ := List.head?_eq_some_iff.mp hfront
    obtain ⟨w', hw', hrest⟩ := (hw ▸ hclose.rest).cons rfl
    by_cases hempty : c.skip.skip.rest.takeWhile isIdentChar = []
    · rw [escape_of_emptyBrace t hc hempty hw, escape_of_emptyBrace t hd (hname ▸ hempty) hw']
      exact congrArg (LocatedFault.mk · _) hplace
    · rw [escape_of_brace hc hempty hw, escape_of_brace hd (hname ▸ hempty) hw', hname]
      exact ⟨rfl, hclose.skip hw hw' hrest⟩
  · rw [escape_of_openBrace t hc hfront, escape_of_openBrace t hd (mt hbrace.mpr hfront)]
    exact congrArg (LocatedFault.mk · _) hclose.location

theorem Abreast.escape {v v' : List Char} (t : Template) (h : c.Abreast d) (hc : c.rest = '$' :: v)
    (hd : d.rest = '$' :: v') (hv : SameText v v') : Agree Eq (c.escape t) (d.escape t) := by
  have hplace := h.location
  have hskip := h.skip hc hd hv
  have hcv := rest_skip hc
  have hdv := rest_skip hd
  obtain ⟨rfl, rfl⟩ | ⟨u, u', hend, hend', -⟩ | ⟨ch, u, u', hch, rfl, rfl, hu⟩ := hv.front
  · simp only [Cursor.escape, hcv, hdv, Agree, hplace]
  · obtain ⟨ch, w, -, hw, -, hch⟩ := hend.front
    obtain ⟨ch', w', -, hw', -, hch'⟩ := hend'.front
    rw [escape_of_lineEnd (hcv.trans hw) hch, escape_of_lineEnd (hdv.trans hw') hch']
    exact ⟨rfl, hskip.skipLineEnd.inLine.skipWhile (plain_isSpaceOrTab false).inLine⟩
  have hskip₂ := hskip.skip hcv hdv hu
  by_cases hdollar : ch = '$'
  · subst hdollar
    rw [Cursor.escape, Cursor.escape, hcv, hdv]
    exact ⟨rfl, hskip₂⟩
  by_cases hspace : ch = ' '
  · subst hspace
    rw [Cursor.escape, Cursor.escape, hcv, hdv]
    exact ⟨rfl, hskip₂⟩
  by_cases hcolon : ch = ':'
  · subst hcolon
    rw [Cursor.escape, Cursor.escape, hcv, hdv]
    exact ⟨rfl, hskip₂⟩
  by_cases hbrace : ch = '\x7b'
  · subst hbrace
    exact escape_brace t hplace hskip₂ hcv hdv
  by_cases hvar : isSimpleVarChar ch = true
  · have hvars := (plain_isSimpleVarChar false).inLine
    rw [escape_of_simpleVar hcv hvar, escape_of_simpleVar hdv hvar, hskip.takeWhile_eq hvars]
    exact ⟨rfl, hskip.skipWhile hvars⟩
  · rw [Bool.not_eq_true] at hvar
    rw [escape_of_other t hcv hch hdollar hspace hcolon hbrace hvar,
      escape_of_other t hdv hch hdollar hspace hcolon hbrace hvar]
    exact congrArg (LocatedFault.mk · _) hplace

theorem pieces_of_escape_error {v : List Char} {t : Template} {mode : ValueMode}
    {fault : LocatedFault} {c' : Cursor} (hfront : (c.skipWhile mode.isPlain).rest = '$' :: v)
    (hread : (c.skipWhile mode.isPlain).escape
      (t.pushLiteral (String.ofList (c.rest.takeWhile mode.isPlain))) = .error fault c') :
    pieces mode c t = .error fault c' := by
  rw [pieces.eq_def mode c t]
  dsimp only
  split
  · split
    · next heq => cases hread.symm.trans heq
    · next heq =>
      cases hread.symm.trans heq
      rfl
  · next hne => exact absurd hfront (hne v)

theorem Abreast.pieces (mode : ValueMode) (t : Template) (h : c.Abreast d) :
    Agree Eq (pieces mode c t) (pieces mode d t) := by
  induction hlength : c.rest.length using Nat.strongRecOn generalizing c d t with
  | ind n ih =>
    subst hlength
    have hplain := h.takeWhile_eq (plain_isPlain mode true).inLine
    have hskip := h.skipWhile (plain_isPlain mode true).inLine
    have hdollar := hskip.rest.head?_eq_some_iff (c := '$') rfl
    by_cases hfront : (c.skipWhile mode.isPlain).rest.head? = some '$'
    · obtain ⟨v, hc⟩ := List.head?_eq_some_iff.mp hfront
      obtain ⟨v', hd, hv⟩ := (hc ▸ hskip.rest).cons rfl
      have hescape := hskip.escape
        (t.pushLiteral (String.ofList (c.rest.takeWhile mode.isPlain))) hc hd hv
      obtain ⟨u, c₁, d₁, hc', hd', h₁⟩ | ⟨fault, c₁, d₁, hc', hd'⟩ := hescape.cases
      · rw [pieces_of_escape hc hc', pieces_of_escape hd (hplain ▸ hd')]
        have hlt : c₁.rest.length < c.rest.length :=
          Nat.lt_of_lt_of_le (length_escape_lt hc hc') (length_skipWhile_le ..)
        exact ih _ hlt u h₁ rfl
      · rw [pieces_of_escape_error hc hc', pieces_of_escape_error hd (hplain ▸ hd')]
        rfl
    · have hc (v : List Char) : (c.skipWhile mode.isPlain).rest ≠ '$' :: v := fun hv =>
        hfront (by rw [hv]; rfl)
      have hd (v : List Char) : (d.skipWhile mode.isPlain).rest ≠ '$' :: v := fun hv =>
        hfront (hdollar.mpr (by rw [hv]; rfl))
      cases mode with
      | path =>
        rw [pieces_path_of_end hc, pieces_path_of_end hd, hplain]
        exact ⟨rfl, hskip⟩
      | line =>
        rw [pieces_line_of_end hc, pieces_line_of_end hd, hplain]
        exact ⟨rfl, hskip.skipLineEnd⟩

theorem Abreast.value (mode : ValueMode) (h : c.Abreast d) :
    Agree Eq (c.value mode) (d.value mode) :=
  (h.inLine.skipWhile inLine_isSpace).pieces mode .empty

end Cursor

end Rebuild
