import Rebuild.Proofs.Manifest.Clauses
import Rebuild.Proofs.Manifest.Pieces

/-!
# Reading what was written

The parts of a build statement are read from a text that begins with them as they may be written:
reading succeeds, takes exactly that part of the text, and yields what was written.
-/

namespace Rebuild

open Manifest

namespace Cursor

variable {c d : Cursor} {t u : Template} {mode : ValueMode} {p : Char → Bool}
  {before text stop : List Char} {ch : Char}

/-! ## Values -/

theorem At.escapePath {path : List Char} (h : c.At (escapePath path ++ text))
    (hplain : ∀ ch ∈ path, ch ≠ '\t' ∧ ch ≠ '|' ∧ isLineEnd ch = false) :
    ∃ d, d.At text ∧ pieces .path c t = pieces .path d (t.pushLiteral (String.ofList path)) := by
  have htext : Manifest.escapePath path = textOf (charPieces isEscaped path) :=
    (textOf_charPieces ..).symm
  have hfit : Fit .path text (charPieces isEscaped path) := by
    refine fit_charPieces (fun _ _ => id) fun ch hch hescaped => ?_
    obtain ⟨-, hbar, hend⟩ := hplain ch hch
    simpa [ValueMode.isPlain, isEscaped, hbar, hend, and_assoc] using hescaped
  rw [htext] at h
  obtain ⟨d, hd, hpieces⟩ := h.readPieces hfit
  exact ⟨d, hd, by rw [hpieces, foldl_add_charPieces]⟩

/-- Lines that go on in others, the last one in front of `text`. -/
theorem fit_goesOn {indents : List (List Char)}
    (hblank : ∀ indent ∈ indents, ∀ ch ∈ indent, isSpaceOrTab ch = true)
    (htext : ∀ ch ∈ text.head?, isSpaceOrTab ch = false) :
    Fit mode text (indents.map (.goesOn ['\n'])) := by
  induction indents with
  | nil => trivial
  | cons indent indents ih =>
    obtain ⟨hindent, hindents⟩ := List.forall_mem_cons.mp hblank
    refine ⟨⟨.inl rfl, hindent, ?_⟩, ih hindents⟩
    -- the next line begins with an escape, or is the last one
    cases indents with
    | nil => exact htext
    | cons next indents => simp [Piece.text, isSpaceOrTab]

/-- Lines that a value goes on in add nothing to it. -/
theorem At.continuations {lines : Continuations} (mode : ValueMode) (t : Template)
    (h : c.At (lines.text ++ text)) (htext : ∀ ch ∈ text.head?, isSpaceOrTab ch = false) :
    ∃ d, d.At text ∧ pieces mode c t = pieces mode d t := by
  have hlines : lines.text = textOf (lines.indents.map (.goesOn ['\n'])) := by
    rw [textOf, List.flatMap_map]
    rfl
  have hnothing (indents : List (List Char)) :
      (indents.map (.goesOn ['\n'])).foldl Piece.add t = t := by
    induction indents with
    | nil => rfl
    | cons indent indents ih => exact ih
  rw [hlines] at h
  obtain ⟨d, hd, hpieces⟩ := h.readPieces (fit_goesOn lines.blank htext)
  exact ⟨d, hd, by rw [hpieces, hnothing]⟩

/-- The text is one that no path goes on into. -/
def EndsPath (text : List Char) : Prop :=
  ∀ ch ∈ text.head?, ch = ' ' ∨ ch = ':' ∨ ch = '|' ∨ isLineEnd ch = true

theorem EndsPath.endsValue (h : EndsPath stop) : EndsValue .path stop := by
  intro ch hch
  obtain rfl | rfl | rfl | hend := h ch hch
  · decide
  · decide
  · decide
  · refine ⟨by simp [ValueMode.isPlain, hend], ?_⟩
    rintro rfl
    exact absurd hend (by decide)

/-- A gap with the lines after it takes in all spaces. -/
theorem front_of_continuations (lines : Continuations)
    (htext : ∀ ch ∈ text.head?, isSpaceOrTab ch = false) :
    ∀ ch ∈ (lines.text ++ text).head?, isSpace ch = false := by
  obtain ⟨indents, -⟩ := lines
  cases indents with
  | nil =>
    intro ch hch
    have := htext ch hch
    simp_all [isSpace, isSpaceOrTab]
  | cons indent indents => simp [Continuations.text, isSpace]

theorem At.value {lines : Continuations} {path : List Char}
    (h : c.At (lines.text ++ (Manifest.escapePath path ++ stop)))
    (hplain : ∀ ch ∈ path, ch ≠ '\t' ∧ ch ≠ '|' ∧ isLineEnd ch = false)
    (hblank : ∀ ch ∈ (Manifest.escapePath path ++ stop).head?, isSpaceOrTab ch = false)
    (hstop : EndsPath stop) :
    ∃ d, c.value .path = .ok (.literal (String.ofList path)) d ∧ d.At stop := by
  have hspace := front_of_continuations lines hblank
  obtain ⟨d, hd, hlines⟩ := h.continuations .path .empty hblank
  obtain ⟨e, he, hpath⟩ := hd.escapePath (t := .empty) hplain
  refine ⟨e, ?_, he⟩
  rw [Cursor.value, h.inLine.skipWhile_eq hspace, inLine_of_inside h.inside, hlines, hpath]
  exact pieces_of_endsValue (he.rest ▸ hstop.endsValue)

/-! ## Tokens -/

theorem At.nextToken_eq (h : c.At text) (hspace : ∀ ch ∈ text.head?, isSpace ch = false) :
    c.nextToken = c.tokenInLine ∧ c.skipWhile isSpace = c :=
  ⟨nextToken_inside h.inside, h.skipWhile_eq hspace⟩

theorem At.nextToken_colon (h : c.At (':' :: text)) : ∃ token d, c.nextToken = .ok token d ∧
    token.kind = .colon ∧ d.At text := by
  obtain ⟨htoken, hskip⟩ := h.nextToken_eq (by simp [isSpace])
  refine ⟨c.token .colon [':'], c.skip, ?_, rfl, h.skip⟩
  rw [htoken, Cursor.tokenInLine, hskip, h.rest]
  rfl

/-- Separators are told apart by the character after the bar. -/
theorem At.nextToken_separator {separator : Separator} (h : c.At (separator.text ++ text))
    (hbar : text.head? ≠ some '|') (hat : text.head? ≠ some '@') :
    ∃ token d, c.nextToken = .ok token d ∧ token.kind = separator.kind ∧ d.At text := by
  obtain ⟨htoken, hskip⟩ := h.nextToken_eq (by cases separator <;> simp [Separator.text, isSpace])
  cases separator with
  | pipe =>
    have hrest := (congrArg Cursor.rest hskip).trans h.rest
    exact ⟨_, _, htoken.trans (tokenInLine_of_pipe hrest hbar hat), rfl, hskip.symm ▸ h.skip⟩
  | pipe2 =>
    refine ⟨c.token .pipe2 ['|', '|'], c.skip.skip, ?_, rfl, h.skip.skip⟩
    rw [htoken, Cursor.tokenInLine, hskip, h.rest]
    rfl
  | pipeAt =>
    refine ⟨c.token .pipeAt ['|', '@'], c.skip.skip, ?_, rfl, h.skip.skip⟩
    rw [htoken, Cursor.tokenInLine, hskip, h.rest]
    rfl

/-- A word is read alike at the start of a line and inside it. -/
theorem nextToken_of_word (h : c.rest.takeWhile isIdentChar ≠ []) :
    c.inLine.skipWhile isSpace = c.inLine ∧ c.nextToken = c.inLine.tokenInLine := by
  obtain ⟨ch, text, hrest, -, hspace, hcomment, hend⟩ := front_of_word h
  have hnil : c.rest.takeWhile isSpace = [] := by simp [hrest, hspace]
  have hskip : c.skipWhile isSpace = c := skipWhile_of_nil hnil
  refine ⟨skipWhile_of_nil hnil, ?_⟩
  cases hstart : c.atLineStart with
  | false => rw [nextToken_inside hstart, inLine_of_inside hstart]
  | true =>
    rw [nextToken_of_text hstart _ _ hnil, hskip]
    · simp [AtEnd, hskip, hrest, hend]
    · simp [NoComment, hrest, hspace, hcomment]

theorem nextToken_build (h : c.rest = "build".toList ++ text)
    (hstop : ∀ ch ∈ text.head?, isIdentChar ch = false) :
    ∃ token d, c.nextToken = .ok token d ∧ token.kind = .build ∧ d.At text := by
  have hword : c.inLine.At ("build".toList ++ text) := ⟨h, rfl⟩
  obtain ⟨htake, hd⟩ := hword.skipWhile (p := isIdentChar) (by simp [isIdentChar]) hstop
  obtain ⟨hskip, hnext⟩ := nextToken_of_word (c := c) (htake ▸ by decide)
  have hfront : (c.inLine.skipWhile isSpace).rest = 'b' :: ("uild".toList ++ text) := by
    rw [hskip]
    exact h
  have htoken := tokenInLine_of_word hfront (by decide)
  rw [hskip, htake] at htoken
  exact ⟨_, _, hnext.trans htoken, rfl, hd⟩

/-- No indentation is read in front of a word, or at the end of the text. -/
theorem nextToken_of_flush (h : ∀ ch ∈ c.rest.head?, isIdentChar ch = true) :
    ∃ token d, c.nextToken = .ok token d ∧ token.kind ≠ .indent := by
  cases hrest : c.rest with
  | nil => exact ⟨_, _, nextToken_of_nil hrest, nofun⟩
  | cons ch text =>
    have hword : c.rest.takeWhile isIdentChar ≠ [] := by simp [hrest, h ch (by simp [hrest])]
    obtain ⟨hskip, hnext⟩ := nextToken_of_word hword
    obtain ⟨token, d, htoken, hkind⟩ := tokenInLine_of_word_ne_nil (c := c.inLine) (by rwa [hskip])
    refine ⟨token, d, hnext.trans htoken, ?_⟩
    rw [hkind, TokenKind.keyword?]
    repeat' split
    all_goals nofun

/-- The line ends, or the text does, and only `rest` is left. -/
def EndsWith (text rest : List Char) : Prop :=
  SameEnd text text rest rest ∨ text = [] ∧ rest = []

/-- The cursor is done with a line and has the text to read. -/
structure Between (text : List Char) (c : Cursor) : Prop where
  rest : c.rest = text
  start : c.atLineStart = true ∨ text = []

theorem Between.endsLine (hc : c.Between text) (hd : d.Between text) :
    EndsLine Eq c d := by
  by_cases htext : text = []
  · exact .inr ⟨hc.rest.trans htext, hd.rest.trans htext, rfl⟩
  · exact .inl ⟨hc.start.resolve_right htext, hd.start.resolve_right htext,
      hc.rest.trans hd.rest.symm⟩

/-- The token for the end of a line, or of the text. -/
def endKind (text : List Char) : TokenKind := if text = [] then .eof else .newline

theorem endKind_eq (text : List Char) : endKind text = .newline ∨ endKind text = .eof := by
  unfold endKind
  split
  · exact .inr rfl
  · exact .inl rfl

theorem At.nextToken_lineEnd (h : c.At text) (hend : EndsWith text before) :
    ∃ token d, c.nextToken = .ok token d ∧ token.kind = endKind text ∧ d.Between before := by
  obtain hend | ⟨rfl, rfl⟩ := hend
  · obtain ⟨ch, v, -, rfl, -, hch⟩ := hend.front
    have hspace : isSpace ch = false := by
      refine Bool.eq_false_iff.mpr fun hspace => ?_
      simp [(plain_isSpace false ch hspace).1] at hch
    obtain ⟨htoken, hskip⟩ := h.nextToken_eq (by simpa using hspace)
    obtain ⟨width, hnext, -⟩ := skipLineEnd_of_sameEnd (c := c) (d := c) (by rwa [h.rest])
    refine ⟨c.token .newline [], c.skipLineEnd, ?_, rfl, ?_⟩
    · rw [htoken, tokenInLine_of_atEnd, hskip]
      · simp [lineEndToken, h.rest]
      · simpa [AtEnd, hskip, h.rest] using hch
    · rw [hnext]
      exact ⟨rfl, .inl rfl⟩
  · refine ⟨_, _, nextToken_of_nil h.rest, rfl, ?_, .inr rfl⟩
    exact (congrArg Cursor.rest (h.skipWhile_eq (by simp))).trans h.rest

end Cursor

namespace Lexer

open Sequence (Succeeds)

/-- The lexer is inside a line and has the text to read. -/
def At (text : List Char) (l : Lexer) : Prop := l.cursor.At text

/-- The lexer is done with a line and has the text to read. -/
def Between (text : List Char) (l : Lexer) : Prop := l.cursor.Between text

theorem between_start (text : List Char) : (start text).Between text := ⟨rfl, .inl rfl⟩

variable {α : Type} {text rest : List Char} {kind : TokenKind} {P : Lexer → Prop}

theorem succeeds_location : Succeeds P location fun _ => P :=
  fun l h => ⟨_, l, rfl, h⟩

theorem succeeds_skipSpaces {n : Nat} (h : ∀ ch ∈ text.head?, isSpace ch = false) :
    Succeeds (At (spaces n ++ text)) skipSpaces fun _ => At text :=
  fun l hl => ⟨(), _, rfl, (Cursor.At.skipWhile hl.inLine (by simp [spaces, isSpace]) h).2⟩

theorem succeeds_value {lines : Continuations} (path : List Char)
    (hplain : ∀ ch ∈ path, ch ≠ '\t' ∧ ch ≠ '|' ∧ isLineEnd ch = false)
    (hblank : ∀ ch ∈ (escapePath path ++ text).head?, isSpaceOrTab ch = false)
    (hstop : Cursor.EndsPath text) :
    Succeeds (At (lines.text ++ (escapePath path ++ text))) (value .path) fun t l =>
      t = .literal (String.ofList path) ∧ l.At text := by
  intro l hl
  obtain ⟨d, hvalue, hd⟩ := Cursor.At.value hl hplain hblank hstop
  exact ⟨_, { l with cursor := d }, by rw [value, withCursor, hvalue], rfl, hd⟩

theorem front_of_name {name : String} (hname : IsWord name) (text : List Char) :
    ∀ ch ∈ (name.toList ++ text).head?, isSpace ch = false := by
  intro ch hch
  rw [List.head?_append, Option.or_of_isSome (by simpa using hname.ne_empty)] at hch
  refine Bool.eq_false_iff.mpr fun hspace => ?_
  obtain rfl : ch = ' ' := by simpa [isSpace] using hspace
  exact absurd (hname.ident _ (List.mem_of_head? hch)) (by decide)

/-- A name ends in front of any other character. -/
theorem succeeds_ident {name : String} (hname : IsWord name)
    (hstop : ∀ ch ∈ text.head?, isIdentChar ch = false) :
    Succeeds (At (name.toList ++ text)) ident fun result l => result = name ∧ l.At text := by
  intro l hl
  have hskip : l.cursor.inLine.skipWhile isSpace = l.cursor :=
    (hl.inLine.skipWhile_eq (front_of_name hname text)).trans (Cursor.inLine_of_inside hl.inside)
  obtain ⟨htake, hnext⟩ := hl.skipWhile hname.ident hstop
  refine ⟨name, { l with cursor := l.cursor.skipWhile isIdentChar }, ?_, rfl, hnext⟩
  rw [ident, withCursor, Cursor.ident, hskip, htake]
  simp [hname.ne_empty]

theorem succeeds_next {Q : TokenKind → Cursor → Prop}
    (h : ∀ c : Cursor, c.At text → ∃ token d, c.nextToken = .ok token d ∧ Q token.kind d) :
    Succeeds (At text) next fun token l => Q token.kind l.cursor := by
  intro l hl
  obtain ⟨token, d, htoken, hQ⟩ := h l.cursor hl
  exact ⟨token, _, next_of_ok htoken, hQ⟩

theorem succeeds_lineEnd (hend : Cursor.EndsWith text rest) :
    Succeeds (At text) lineEnd fun _ => Between rest := by
  refine (succeeds_next (Q := fun kind d => kind = Cursor.endKind text ∧ d.Between rest)
    fun c hc => hc.nextToken_lineEnd hend).bind fun token => .given fun hkind => ?_
  rw [if_pos (hkind ▸ Cursor.endKind_eq text)]
  exact .pure fun _ => id

theorem succeeds_expect (h : ∀ c : Cursor, c.At text → ∃ token d, c.nextToken = .ok token d ∧
    token.kind = kind ∧ d.At rest) : Succeeds (At text) (expect kind) fun _ => At rest := by
  refine (succeeds_next (Q := fun kind' d => kind' = kind ∧ d.At rest) h).bind fun token =>
    .given fun hkind => ?_
  rw [if_pos hkind]
  exact .pure fun _ => id

/-- The token that is asked for is taken. -/
theorem succeeds_peek (h : ∀ c : Cursor, c.At text → ∃ token d, c.nextToken = .ok token d ∧
    token.kind = kind ∧ d.At rest) :
    Succeeds (At text) (peek kind) fun token l => token.isSome ∧ l.At rest := by
  intro l hl
  obtain ⟨token, d, htoken, hkind, hd⟩ := h l.cursor hl
  refine ⟨some token, ⟨d, l.cursor⟩, ?_, rfl, hd⟩
  rw [peek, next_of_ok htoken]
  exact if_pos hkind

/-- Any other token is left. -/
theorem succeeds_peek_other {other : TokenKind} (hne : other ≠ kind)
    (h : ∀ c : Cursor, c.At text → ∃ token d, c.nextToken = .ok token d ∧ token.kind = other) :
    Succeeds (At text) (peek kind) fun token l => token = none ∧ l.At text := by
  intro l hl
  obtain ⟨token, d, htoken, hkind⟩ := h l.cursor hl
  refine ⟨none, l, ?_, rfl, hl⟩
  rw [peek, next_of_ok htoken]
  exact if_neg (hkind ▸ hne)

end Lexer

end Rebuild
