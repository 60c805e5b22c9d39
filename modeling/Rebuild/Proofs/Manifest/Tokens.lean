import Rebuild.Proofs.Manifest.Cursors

/-!
# Tokens at line starts

At the start of a line a comment is passed over before the next token. Two cursors of which only the
second has such a comment in front still read the same token, and go on alike. The exception is a
word that begins a binding: it is read again, from where the token before it ended.
-/

namespace Rebuild

open Manifest

variable {R : List Char → List Char → Prop} {text : List Char} {c d c' : Cursor} {token : Token}

namespace Manifest

theorem keyword?_ne_ident (word : String) : TokenKind.keyword? word ≠ some .ident := by
  unfold TokenKind.keyword?
  repeat' split
  all_goals nofun

theorem escapesIn_of_comment (h : (text.dropWhile isSpace).head? = some '#') :
    escapesIn text = false := by
  simp [escapesIn, h]

theorem escapesIn_of_no_comment (h : (text.dropWhile isSpace).head? ≠ some '#') :
    escapesIn text = false ↔
      TokenKind.keyword? (String.ofList (text.takeWhile isIdentChar)) = some .rule ∨
      TokenKind.keyword? (String.ofList (text.takeWhile isIdentChar)) = some .pool := by
  simp only [escapesIn, h, ne_eq, not_false_eq_true, decide_true, Bool.true_and]
  split
  · next hword => simp [hword]
  · next hword => simp [hword]
  · next hrule hpool => exact ⟨nofun, fun h => (h.elim hrule hpool).elim⟩

theorem keyword?_nil : TokenKind.keyword? (String.ofList []) = none := by
  decide

/-- Where a word begins there is neither a space nor a comment nor the end of the line. -/
theorem front_of_word (h : text.takeWhile isIdentChar ≠ []) : ∃ ch u, text = ch :: u ∧
    isIdentChar ch = true ∧ isSpace ch = false ∧ ch ≠ '#' ∧ isLineEnd ch = false := by
  cases text with
  | nil => exact absurd rfl h
  | cons ch u =>
    have hch : isIdentChar ch = true :=
      Decidable.byContradiction fun hch => h (by rw [List.takeWhile_cons, if_neg hch])
    refine ⟨ch, u, rfl, hch, Bool.eq_false_iff.mpr fun hspace => ?_, ?_,
      (plain_isIdentChar false ch hch).1⟩
    · obtain rfl : ch = ' ' := by simpa [isSpace] using hspace
      exact absurd hch (by decide)
    · rintro rfl
      exact absurd hch (by decide)

theorem escapesIn_of_spaces (hspaces : text.takeWhile isSpace ≠ [])
    (h : (text.dropWhile isSpace).head? ≠ some '#') : escapesIn text = true := by
  have hword : text.takeWhile isIdentChar = [] := by
    cases htext : text.takeWhile isIdentChar with
    | nil => rfl
    | cons _ _ =>
      have hword : text.takeWhile isIdentChar ≠ [] := by simp [htext]
      obtain ⟨ch, u, rfl, -, hspace, -⟩ := front_of_word hword
      simp [hspace] at hspaces
  rw [← Bool.not_eq_false]
  intro hescapes
  have := (escapesIn_of_no_comment h).mp hescapes
  rw [hword, keyword?_nil] at this
  simp at this

end Manifest

namespace Cursor

/-! ## What comes at a line start -/

theorem nextToken_inside (h : c.atLineStart = false) : c.nextToken = c.tokenInLine := by
  rw [nextToken, if_neg (by simp [h])]

theorem nextToken_of_atEnd (hs : c.atLineStart = true) (h : AtEnd (c.skipWhile isSpace)) :
    c.nextToken = (c.skipWhile isSpace).lineEndToken := by
  rw [nextToken, if_pos hs]
  dsimp only
  split
  · rfl
  · next ch u hu =>
    have hend := h ch (by rw [hu]; rfl)
    rw [dif_neg, if_pos hend]
    rintro rfl
    exact absurd hend (by decide)

theorem nextToken_of_comment {u : List Char} (hs : c.atLineStart = true)
    (h : (c.skipWhile isSpace).rest = '#' :: u) :
    c.nextToken = ((c.skipWhile isSpace).skipWhile isInLine).skipLineEnd.nextToken := by
  rw [nextToken, if_pos hs]
  dsimp only
  split
  · next hu => rw [h] at hu; cases hu
  · next ch _ hu =>
    rw [h] at hu
    cases hu
    rw [dif_pos rfl]

theorem nextToken_of_indent (hs : c.atLineStart = true) (hend : ¬ AtEnd (c.skipWhile isSpace))
    (hc : NoComment c) (hspaces : c.rest.takeWhile isSpace ≠ []) : c.nextToken =
      .ok (c.token .indent (c.rest.takeWhile isSpace)) (c.skipWhile isSpace).inLine := by
  have hoffset := mt offset_skipWhile_eq_iff.mp hspaces
  rw [nextToken, if_pos hs]
  dsimp only
  split
  · next hu => exact absurd (by simp [AtEnd, hu]) hend
  · next ch u hu =>
    have hch : ¬ isLineEnd ch = true := fun hch => hend (by simpa [AtEnd, hu] using hch)
    have hcomment : ch ≠ '#' := fun hch => hc (by rw [← hch]; exact congrArg List.head? hu)
    rw [dif_neg hcomment, if_neg hch, if_pos hoffset]

theorem nextToken_of_text (hs : c.atLineStart = true) (hend : ¬ AtEnd (c.skipWhile isSpace))
    (hc : NoComment c) (hspaces : c.rest.takeWhile isSpace = []) :
    c.nextToken = (c.skipWhile isSpace).inLine.tokenInLine := by
  have hoffset := offset_skipWhile_eq_iff.mpr hspaces
  rw [nextToken, if_pos hs]
  dsimp only
  split
  · next hu => exact absurd (by simp [AtEnd, hu]) hend
  · next ch u hu =>
    have hch : ¬ isLineEnd ch = true := fun hch => hend (by simpa [AtEnd, hu] using hch)
    have hcomment : ch ≠ '#' := fun hch => hc (by rw [← hch]; exact congrArg List.head? hu)
    rw [dif_neg hcomment, if_neg hch, if_neg (not_not_intro hoffset)]

/-! ## Words -/

theorem tokenInLine_of_word_ne_nil (h : (c.skipWhile isSpace).rest.takeWhile isIdentChar ≠ []) :
    ∃ token c', c.tokenInLine = .ok token c' ∧ token.kind = (TokenKind.keyword?
      (String.ofList ((c.skipWhile isSpace).rest.takeWhile isIdentChar))).getD .ident := by
  obtain ⟨ch, u, hu, hch, -⟩ := front_of_word h
  exact ⟨_, _, tokenInLine_of_word hu hch, rfl⟩

/-- Only a word can be the keyword of a statement. -/
theorem word_ne_nil (h : c.tokenInLine = .ok token c')
    (hkind : token.kind = .rule ∨ token.kind = .pool ∨ token.kind = .ident) :
    (c.skipWhile isSpace).rest.takeWhile isIdentChar ≠ [] := by
  have hlineEnd {c : Cursor} (h : c.lineEndToken = .ok token c') : False := by
    unfold lineEndToken at h
    split at h
    all_goals cases h; simp [Cursor.token] at hkind
  unfold tokenInLine at h
  dsimp only at h
  split at h
  · exact (hlineEnd h).elim
  · cases h; simp [Cursor.token] at hkind
  · cases h; simp [Cursor.token] at hkind
  · cases h; simp [Cursor.token] at hkind
  · cases h; simp [Cursor.token] at hkind
  · cases h; simp [Cursor.token] at hkind
  · exact (hlineEnd h).elim
  · next hu =>
    split at h
    · exact (hlineEnd h).elim
    split at h
    · next hch => simp [hu, hch]
    · cases h

/-! ## Names at line starts -/

theorem tokenInLine_of_no_spaces (h : c.rest.takeWhile isSpace = [])
    (hword : c.rest.takeWhile isIdentChar ≠ []) :
    ∃ token c', (c.skipWhile isSpace).inLine.tokenInLine = .ok token c' ∧ token.kind =
      (TokenKind.keyword? (String.ofList (c.rest.takeWhile isIdentChar))).getD .ident := by
  have hrest := rest_skipWhile_of_nil h
  have hrest' : ((c.skipWhile isSpace).inLine.skipWhile isSpace).rest = c.rest :=
    (rest_skipWhile_of_nil (by rw [← h]; exact congrArg _ hrest)).trans hrest
  rw [← hrest'] at hword ⊢
  exact tokenInLine_of_word_ne_nil hword

/-- A line that binds a variable of the file begins with a token for the name. -/
theorem nextToken_of_bindsAt (hs : c.atLineStart = true) (h : BindsAt c.rest) :
    ∃ token c', c.nextToken = .ok token c' ∧ token.kind = .ident := by
  obtain ⟨ch, u, hu, -, hspace, hcomment, hend⟩ := front_of_word h.1
  have hspaces : c.rest.takeWhile isSpace = [] := by simp [hu, hspace]
  have hrest := rest_skipWhile_of_nil hspaces
  obtain ⟨token, c', htoken, hkind⟩ := tokenInLine_of_no_spaces hspaces h.1
  rw [h.2] at hkind
  refine ⟨token, c', (nextToken_of_text hs ?_ ?_ hspaces).trans htoken, hkind⟩
  · simp [AtEnd, hrest, hu, hend]
  · simp [NoComment, hu, hspace, hcomment]

/-- After the token for a name at the start of a line, a name is found there again only if the line
binds a variable of the file. -/
theorem bindsAt_of_ident {name : String} {c'' : Cursor} (hs : c.atLineStart = true)
    (htoken : c.nextToken = .ok token c') (hkind : token.kind = .ident)
    (hname : c.ident = .ok name c'') : BindsAt c.rest := by
  have hword : (c.skipWhile isSpace).rest.takeWhile isIdentChar ≠ [] := by
    intro hnil
    replace hnil : (c.inLine.skipWhile isSpace).rest.takeWhile isIdentChar = [] := hnil
    simp [Cursor.ident, hnil, fail] at hname
  obtain ⟨ch, u, hu, -, -, hcomment, hend⟩ := front_of_word hword
  have hatEnd : ¬ AtEnd (c.skipWhile isSpace) := by simp [AtEnd, hu, hend]
  have hno : NoComment c := by
    intro hfront
    rw [show (c.rest.dropWhile isSpace).head? = some ch from congrArg List.head? hu] at hfront
    cases hfront
    exact hcomment rfl
  by_cases hspaces : c.rest.takeWhile isSpace = []
  · rw [rest_skipWhile_of_nil hspaces] at hword
    obtain ⟨token', d', htoken', hkind'⟩ := tokenInLine_of_no_spaces hspaces hword
    rw [nextToken_of_text hs hatEnd hno hspaces, htoken'] at htoken
    cases htoken
    refine ⟨hword, ?_⟩
    cases hkeyword : TokenKind.keyword? (String.ofList (c.rest.takeWhile isIdentChar)) with
    | none => rfl
    | some kind =>
      rw [hkeyword, hkind] at hkind'
      cases (show TokenKind.ident = kind from hkind')
      exact absurd hkeyword (keyword?_ne_ident _)
  · rw [nextToken_of_indent hs hatEnd hno hspaces] at htoken
    cases htoken
    cases hkind

/-! ## Tokens in step -/

/-- Where the cursors are after a token at the start of a line. After a word that begins a binding
this does not matter. -/
def Onward (R : List Char → List Char → Prop) (kind : TokenKind) : Cursor → Cursor → Prop :=
  match kind with
  | .newline => StartsLine R
  | .eof => Finished R
  | .rule | .pool => SharesLine false R
  | .ident => fun _ _ => True
  | _ => SharesLine true R

theorem onward_of_after {escapes : Bool} {kind : TokenKind} (h : After escapes R kind c d)
    (hkeyword : kind = .rule ∨ kind = .pool → escapes = false)
    (hother : escapes = false → kind = .rule ∨ kind = .pool ∨ kind = .newline ∨ kind = .eof) :
    Onward R kind c d := by
  cases escapes with
  | false => obtain rfl | rfl | rfl | rfl := hother rfl <;> exact h
  | true =>
    cases kind with
    | rule => cases hkeyword (.inl rfl)
    | pool => cases hkeyword (.inr rfl)
    | ident => trivial
    | _ => exact h

theorem rest_skipWhile_commentLine {indent : Nat} {note rest : List Char}
    (h : c.rest = commentLine indent note ++ rest) :
    (c.skipWhile isSpace).rest = '#' :: (note ++ '\n' :: rest) := by
  show c.rest.dropWhile isSpace = _
  rw [h, commentLine, List.append_assoc, List.dropWhile_append_of_pos (by simp [isSpace])]
  simp [isSpace]

/-- Where only the second cursor has a comment in front, it passes over it. -/
theorem nextToken_of_commentLine {indent : Nat} {note rest : List Char}
    (hnote : ∀ ch ∈ note, isLineEnd ch = false) (hs : c.atLineStart = true)
    (h : c.rest = commentLine indent note ++ rest) :
    ∃ d : Cursor, c.nextToken = d.nextToken ∧ d.atLineStart = true ∧ d.rest = rest := by
  have hspaces := rest_skipWhile_commentLine h
  have hline : ((c.skipWhile isSpace).skipWhile isInLine).rest = '\n' :: rest := by
    show (c.skipWhile isSpace).rest.dropWhile isInLine = _
    rw [hspaces, ← List.cons_append, List.dropWhile_append_of_pos]
    · simp [isInLine, isLineEnd]
    · simpa [isInLine, isLineEnd] using hnote
  exact ⟨_, nextToken_of_comment hs hspaces, by simp [skipLineEnd, hline, toNextLine],
    by simp [skipLineEnd, hline, toNextLine]⟩

/-- The next token of a line that begins with neither a space nor a comment. -/
theorem onward_of_text (hnil : c.rest.takeWhile isSpace = []) (hno : NoComment c)
    (h : SharesLine (escapesIn c.rest) R (c.skipWhile isSpace).inLine (d.skipWhile isSpace).inLine)
    (hread : (c.skipWhile isSpace).inLine.tokenInLine = .ok token c') :
    ∃ token' d', (d.skipWhile isSpace).inLine.tokenInLine = .ok token' d' ∧
      token.kind = token'.kind ∧ Onward R token.kind c' d' := by
  have hrest := rest_skipWhile_of_nil hnil
  have hrest' : ((c.skipWhile isSpace).inLine.skipWhile isSpace).rest = c.rest :=
    (rest_skipWhile_of_nil (by rw [← hnil]; exact congrArg _ hrest)).trans hrest
  have hkind (hword : c.rest.takeWhile isIdentChar ≠ []) : token.kind =
      (TokenKind.keyword? (String.ofList (c.rest.takeWhile isIdentChar))).getD .ident := by
    obtain ⟨token', e, htoken, hkind⟩ := tokenInLine_of_no_spaces hnil hword
    rw [hread] at htoken
    cases htoken
    exact hkind
  obtain ⟨token', d', hd, hkinds, hafter⟩ := h.tokenInLine (fun _ => by
    rw [NoComment, show ((c.skipWhile isSpace).inLine.rest.dropWhile isSpace) = c.rest from hrest']
    rwa [NoComment, show c.rest.dropWhile isSpace = c.rest from hrest] at hno) hread
  refine ⟨token', d', hd, hkinds, onward_of_after hafter (fun hkeyword => ?_) (fun hescapes => ?_)⟩
  · have hword := word_ne_nil hread (by rw [← or_assoc]; exact .inl hkeyword)
    rw [hrest'] at hword
    have := hkind hword
    refine (escapesIn_of_no_comment hno).mpr ?_
    cases hkey : TokenKind.keyword? (String.ofList (c.rest.takeWhile isIdentChar)) with
    | none => rw [hkey] at this; simp [this] at hkeyword
    | some kind => rw [hkey] at this; simpa [this] using hkeyword
  · have hkey := (escapesIn_of_no_comment hno).mp hescapes
    have hword : c.rest.takeWhile isIdentChar ≠ [] := by
      intro hword
      rw [hword, keyword?_nil] at hkey
      simp at hkey
    rw [hkind hword]
    obtain hkey | hkey := hkey
    · exact .inl (by rw [hkey]; rfl)
    · exact .inr (.inl (by rw [hkey]; rfl))

/-- A comment that takes up a line is passed over by cursors that share the line. -/
theorem startsLine_of_comment (hc : c.atLineStart = true)
    (hd : d.atLineStart = true) (h : SameLine false R false c.rest d.rest) :
    StartsLine R (c.skipWhile isInLine).skipLineEnd (d.skipWhile isInLine).skipLineEnd := by
  obtain ⟨-, hrest⟩ := h.takeWhile_dropWhile plain_isInLine
  obtain ⟨hnil, hnil', hR⟩ | ⟨u, u', hend, hR⟩ | ⟨ch, u, u', hch, hu, -, -⟩ := hrest.front
  · have hskip {c : Cursor} (hnil : c.rest.dropWhile isInLine = []) :
        (c.skipWhile isInLine).skipLineEnd = c.skipWhile isInLine := by
      simp [skipLineEnd, Cursor.skipWhile, hnil]
    rw [hskip hnil, hskip hnil']
    refine ⟨hc, hd, ?_⟩
    simpa [Cursor.skipWhile, hnil, hnil'] using hR
  · obtain ⟨width, hskip, hskip'⟩ :=
      skipLineEnd_of_sameEnd (c := c.skipWhile isInLine) (d := d.skipWhile isInLine) hend
    rw [hskip, hskip']
    exact ⟨rfl, rfl, hR⟩
  · have := atEnd_skipWhile_isInLine c ch (by simp [Cursor.skipWhile, hu])
    simp [this] at hch

/-- Cursors at the start of a line that they share read the same token, if they do so at the start
of every later line where this one is a comment. -/
theorem nextToken_of_sameLine (hc : c.atLineStart = true) (hd : d.atLineStart = true)
    (h : SameLine (escapesIn c.rest) R false c.rest d.rest)
    (later : ¬NoComment c → ∀ e f : Cursor, e.rest.length < c.rest.length → StartsLine R e f →
      e.nextToken = .ok token c' →
        ∃ token' f', f.nextToken = .ok token' f' ∧ token.kind = token'.kind ∧
          Onward R token.kind c' f')
    (hread : c.nextToken = .ok token c') :
    ∃ token' d', d.nextToken = .ok token' d' ∧ token.kind = token'.kind ∧
      Onward R token.kind c' d' := by
  obtain ⟨hspaces, hrest⟩ := h.takeWhile_dropWhile (plain_isSpace _)
  by_cases hcomment : NoComment c
  · have hcomment' : NoComment d := by rwa [NoComment, ← hrest.head?_eq]
    by_cases hend : AtEnd (c.skipWhile isSpace)
    · have hend' : AtEnd (d.skipWhile isSpace) := by
        rwa [AtEnd, show (d.skipWhile isSpace).rest.head? = _ from hrest.head?_eq.symm]
      obtain ⟨kind, e, e', hkind, he, he', hafter⟩ :=
        lineEndToken_eq (c := c.skipWhile isSpace) (d := d.skipWhile isSpace) hrest hend
      rw [nextToken_of_atEnd hc hend, he] at hread
      cases hread
      refine ⟨_, e', (nextToken_of_atEnd hd hend').trans he', rfl, onward_of_after hafter ?_ ?_⟩
      · obtain rfl | rfl := hkind <;> simp [Cursor.token]
      · exact fun _ => .inr (.inr hkind)
    have hend' : ¬ AtEnd (d.skipWhile isSpace) := by
      rwa [AtEnd, show (d.skipWhile isSpace).rest.head? = _ from hrest.head?_eq.symm]
    by_cases hnil : c.rest.takeWhile isSpace = []
    · have hnil' : d.rest.takeWhile isSpace = [] := by rwa [← hspaces]
      rw [nextToken_of_text hc hend hcomment hnil] at hread
      rw [nextToken_of_text hd hend' hcomment' hnil']
      exact onward_of_text hnil hcomment ⟨rfl, rfl, hrest⟩ hread
    · have hnil' : d.rest.takeWhile isSpace ≠ [] := by rwa [← hspaces]
      rw [nextToken_of_indent hc hend hcomment hnil] at hread
      cases hread
      refine ⟨_, _, nextToken_of_indent hd hend' hcomment' hnil', rfl, rfl, rfl, ?_⟩
      rw [← escapesIn_of_spaces hnil hcomment]
      exact hrest
  · have hfront := Decidable.not_not.mp hcomment
    rw [escapesIn_of_comment hfront] at hrest
    obtain ⟨u, hu⟩ := List.head?_eq_some_iff.mp hfront
    obtain ⟨u', hu'⟩ := List.head?_eq_some_iff.mp (hrest.head?_eq ▸ hfront)
    rw [nextToken_of_comment hc hu] at hread
    rw [nextToken_of_comment hd hu']
    refine later hcomment _ _ ?_ (startsLine_of_comment (c := c.skipWhile isSpace) hc hd hrest) hread
    calc ((c.skipWhile isSpace).skipWhile isInLine).skipLineEnd.rest.length
        ≤ ((c.skipWhile isSpace).skipWhile isInLine).rest.length := length_skipLineEnd_le _
      _ < (c.skipWhile isSpace).rest.length := length_skipWhile_lt hu rfl
      _ ≤ c.rest.length := length_skipWhile_le ..

/-- At the start of a line, or of the comment that only the second text has, both cursors read the
same token. -/
theorem StartsLine.nextToken (hR : LinesUp R) (h : StartsLine R c d)
    (hread : c.nextToken = .ok token c') :
    ∃ token' d', d.nextToken = .ok token' d' ∧ token.kind = token'.kind ∧
      Onward R token.kind c' d' := by
  induction hlength : c.rest.length using Nat.strongRecOn generalizing c d with
  | ind n ih =>
    subst hlength
    have hline {d : Cursor} (hd : d.atLineStart = true)
        (hline : SameLine (escapesIn c.rest) R false c.rest d.rest) :
        ∃ token' d', d.nextToken = .ok token' d' ∧ token.kind = token'.kind ∧
          Onward R token.kind c' d' :=
      nextToken_of_sameLine h.start hd hline
        (fun _ e f hlength hef he => ih e.rest.length hlength hef he rfl) hread
    obtain hsame | ⟨indent, note, hnote, hrest, hagain⟩ := hR.line h.rest
    · exact hline h.start' hsame
    obtain ⟨e, he, hstart, hrest'⟩ := nextToken_of_commentLine hnote h.start' hrest
    rw [he]
    obtain hagain | hbinds := hagain
    · obtain hsame | ⟨indent, note, -, hrest, -⟩ := hR.line hagain
      · exact hline hstart (by rwa [hrest'])
      · have := congrArg List.length hrest
        simp [commentLine] at this
        omega
    · obtain ⟨token₁, c₁, hc₁, hkind⟩ := nextToken_of_bindsAt h.start hbinds
      obtain ⟨token₂, e₁, he₁, hkind'⟩ := nextToken_of_bindsAt hstart (by rwa [hrest'])
      rw [hc₁] at hread
      cases hread
      exact ⟨token₂, e₁, he₁, hkind.trans hkind'.symm, by rw [hkind]; trivial⟩

theorem nextToken_of_nil (h : c.rest = []) :
    c.nextToken = .ok ((c.skipWhile isSpace).token .eof []) (c.skipWhile isSpace) := by
  have hnil : (c.skipWhile isSpace).rest = [] := by simp [Cursor.skipWhile, h]
  have hend : AtEnd (c.skipWhile isSpace) := by simp [AtEnd, hnil]
  have htoken : c.nextToken = (c.skipWhile isSpace).lineEndToken := by
    cases hs : c.atLineStart with
    | true => exact nextToken_of_atEnd hs hend
    | false => exact (nextToken_inside hs).trans (tokenInLine_of_atEnd hend)
  rw [htoken, lineEndToken, hnil]

theorem EndsLine.length_le (hR : LinesUp R) (h : EndsLine R c d) :
    c.rest.length ≤ d.rest.length := by
  obtain h | h := h
  · exact hR.length_le h.rest
  · simp [h.nil]

/-- Between lines both cursors read the same token. -/
theorem EndsLine.nextToken (hR : LinesUp R) (h : EndsLine R c d)
    (hread : c.nextToken = .ok token c') :
    ∃ token' d', d.nextToken = .ok token' d' ∧ token.kind = token'.kind ∧
      Onward R token.kind c' d' := by
  obtain h | h := h
  · exact h.nextToken hR hread
  · rw [nextToken_of_nil h.nil] at hread
    cases hread
    refine ⟨_, _, nextToken_of_nil h.nil', rfl, ?_, ?_, h.rest⟩
    · simp [Cursor.skipWhile, h.nil]
    · simp [Cursor.skipWhile, h.nil']

/-- Inside a line both cursors read the same token, unless there is a comment that could hide an
escape. -/
theorem SharesLine.nextToken {escapes : Bool} (h : SharesLine escapes R c d)
    (hc : escapes = true → NoComment c) (hread : c.nextToken = .ok token c') :
    ∃ token' d', d.nextToken = .ok token' d' ∧ token.kind = token'.kind ∧
      After escapes R token.kind c' d' := by
  rw [nextToken_inside h.inside] at hread
  rw [nextToken_inside h.inside']
  exact h.tokenInLine hc hread

end Cursor

end Rebuild
