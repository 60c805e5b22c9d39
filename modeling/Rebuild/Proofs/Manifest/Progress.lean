import Rebuild.Proofs.Manifest.Positions

/-!
# Reading goes on from place to place

Whatever is read, whether that succeeds or fails, the cursor moves on to a place behind the one
where it stood, and a fault is reported at a place on the way. So a lexer always stands at a place
of its text, in whatever order its steps are called: it may go back only to the place where it began
a token.
-/

namespace Rebuild

open Manifest

namespace Cursor

variable {α : Type} {c d e : Cursor} {mid more before text lineEnd : List Char} {ch : Char}
  {p : Char → Bool}

/-! ## Tokens -/

/-- A token is read at a cursor that was reached by moving over `gap`. What stands for itself is
taken into the token; the end of a line is not. -/
inductive Takes (c : Cursor) (gap : List Char) : Token → Cursor → Prop where
  | text {e d : Cursor} {kind : TokenKind} {text : List Char} : Passes gap c e → Passes text e d →
      text ≠ [] → (∀ ch ∈ text, isLineEnd ch = false ∧ ch ≠ '#') → kind ≠ .newline → kind ≠ .eof →
      d.atLineStart = false → Takes c gap (e.token kind text) d
  | lineEnd {e d : Cursor} {lineEnd : List Char} : Passes gap c e → Passes lineEnd e d →
      IsLineEnd lineEnd d.rest → d.atLineStart = true → Takes c gap (e.token .newline []) d
  | eof {e : Cursor} : Passes gap c e → e.rest = [] → Takes c gap (e.token .eof []) e

theorem Passes.takes {token : Token} (h : Passes mid c d) (h' : Takes d more token e) :
    Takes c (mid ++ more) token e := by
  cases h' with
  | text hgap htext hne hplain hline heof hin =>
    exact .text (h.trans hgap) htext hne hplain hline heof hin
  | lineEnd hgap hline hend hstart => exact .lineEnd (h.trans hgap) hline hend hstart
  | eof hgap hnil => exact .eof (h.trans hgap) hnil

theorem takes_lineEndToken {token : Token} (h : c.lineEndToken = .ok token d) (hc : AtEnd c) :
    Takes c [] token d := by
  unfold lineEndToken at h
  split at h
  · next hnil =>
    cases h
    exact .eof (.refl c) hnil
  · next hne =>
    cases h
    obtain ⟨ch, rest, hrest⟩ := List.exists_cons_of_ne_nil hne
    obtain ⟨lineEnd, hend, hpasses, hstart⟩ := Passes.skipLineEnd hrest (hc ch (by simp [hrest]))
    exact .lineEnd (.refl c) hpasses hend hstart

/-- What may stand in front of a token in its line: spaces, and a comment if the token is the end of
the line. -/
def InLineGap (gap : List Char) (kind : TokenKind) : Prop :=
  ∃ n, gap = spaces n ∨ (kind = .newline ∨ kind = .eof) ∧
    ∃ note, (∀ ch ∈ note, isLineEnd ch = false) ∧ gap = spaces n ++ '#' :: note

theorem kind_ne_of_keyword (word : String) :
    (TokenKind.keyword? word).getD .ident ≠ .newline ∧
      (TokenKind.keyword? word).getD .ident ≠ .eof ∧
      (TokenKind.keyword? word).getD .ident ≠ .indent := by
  unfold TokenKind.keyword?
  repeat' split
  all_goals exact ⟨nofun, nofun, nofun⟩

/-- A token that is read inside a line: what it may stand behind depends on its kind, and it is no
indentation. -/
def TakesInLine (c : Cursor) (token : Token) (d : Cursor) : Prop :=
  ∃ gap, InLineGap gap token.kind ∧ Takes c gap token d ∧ token.kind ≠ .indent

/-- What stands for itself behind spaces is a token. -/
theorem takesInLine_text {n : Nat} {kind : TokenKind} (hspaces : Passes (spaces n) c e)
    (htext : Passes text e d) (hne : text ≠ [])
    (hplain : ∀ ch ∈ text, isLineEnd ch = false ∧ ch ≠ '#')
    (hkind : kind ≠ .newline ∧ kind ≠ .eof ∧ kind ≠ .indent) (hd : d.atLineStart = false) :
    TakesInLine c (e.token kind text) d :=
  ⟨_, ⟨n, .inl rfl⟩, .text hspaces htext hne hplain hkind.1 hkind.2.1 hd, hkind.2.2⟩

theorem takesInLine_char {n : Nat} {kind : TokenKind} (hspaces : Passes (spaces n) c e)
    (hin : e.atLineStart = false) (hrest : e.rest = ch :: more)
    (hch : isLineEnd ch = false ∧ ch ≠ '#')
    (hkind : kind ≠ .newline ∧ kind ≠ .eof ∧ kind ≠ .indent) :
    TakesInLine c (e.token kind [ch]) e.skip :=
  takesInLine_text hspaces (.skip hrest hch.1) (List.cons_ne_nil _ _) (by simpa using hch) hkind
    ((atLineStart_skip e).trans hin)

theorem takesInLine_chars {n : Nat} {kind : TokenKind} {ch' : Char}
    (hspaces : Passes (spaces n) c e) (hin : e.atLineStart = false)
    (hrest : e.rest = ch :: ch' :: more) (hch : isLineEnd ch = false ∧ ch ≠ '#')
    (hch' : isLineEnd ch' = false ∧ ch' ≠ '#')
    (hkind : kind ≠ .newline ∧ kind ≠ .eof ∧ kind ≠ .indent) :
    TakesInLine c (e.token kind [ch, ch']) e.skip.skip := by
  have hpasses : Passes [ch, ch'] e e.skip.skip :=
    (Passes.skip hrest hch.1).trans (.skip (rest_skip hrest) hch'.1)
  refine takesInLine_text hspaces hpasses (List.cons_ne_nil _ _) ?_ hkind ?_
  · simpa using ⟨hch, hch'⟩
  · rw [atLineStart_skip, atLineStart_skip, hin]

theorem takesInLine_word {n : Nat} (hspaces : Passes (spaces n) c e) (hin : e.atLineStart = false)
    (hrest : e.rest = ch :: more) (hch : isIdentChar ch = true) :
    TakesInLine c (e.token
      ((TokenKind.keyword? (String.ofList (e.rest.takeWhile isIdentChar))).getD .ident)
      (e.rest.takeWhile isIdentChar)) (e.skipWhile isIdentChar) := by
  have hword : e.rest.takeWhile isIdentChar ≠ [] := by simp [hrest, hch]
  refine takesInLine_text hspaces (.skipWhile (plain_isIdentChar false) e) hword (fun ch hch => ?_)
    (kind_ne_of_keyword _) hin
  have hident := List.all_eq_true.mp List.all_takeWhile ch hch
  refine ⟨(plain_isIdentChar false ch hident).1, ?_⟩
  rintro rfl
  exact absurd hident (by decide)

/-- Behind spaces, and maybe a comment, the end of the line is a token. -/
theorem takesInLine_lineEnd {gap : List Char} {token : Token} (hpasses : Passes gap c e)
    (hgap : token.kind = .newline ∨ token.kind = .eof → InLineGap gap token.kind)
    (h : e.lineEndToken = .ok token d) (he : AtEnd e) : TakesInLine c token d := by
  have hkind := kind_lineEndToken h
  refine ⟨gap, hgap hkind, by simpa using hpasses.takes (takes_lineEndToken h he), ?_⟩
  rcases hkind with hkind | hkind
  all_goals simp [hkind]

theorem takes_tokenInLine {token : Token} (hc : c.atLineStart = false)
    (h : c.tokenInLine = .ok token d) : TakesInLine c token d := by
  have hspaces : Passes (c.rest.takeWhile isSpace) c (c.skipWhile isSpace) :=
    .skipWhile (plain_isSpace false) c
  have hin : (c.skipWhile isSpace).atLineStart = false := hc
  rw [← spaces_takeWhile] at hspaces
  unfold tokenInLine at h
  dsimp only at h
  generalize c.skipWhile isSpace = e at h hspaces hin
  generalize (c.rest.takeWhile isSpace).length = n at hspaces
  have hend (h : e.lineEndToken = .ok token d) (he : AtEnd e) : TakesInLine c token d :=
    takesInLine_lineEnd hspaces (fun _ => ⟨n, .inl rfl⟩) h he
  split at h
  · next hrest => exact hend h (by simp [AtEnd, hrest])
  · next hrest =>
    cases h
    exact takesInLine_char hspaces hin hrest (by decide) (by decide)
  · next hrest =>
    cases h
    exact takesInLine_char hspaces hin hrest (by decide) (by decide)
  · next hrest =>
    cases h
    exact takesInLine_chars hspaces hin hrest (by decide) (by decide) (by decide)
  · next hrest =>
    cases h
    exact takesInLine_chars hspaces hin hrest (by decide) (by decide) (by decide)
  · next hrest =>
    cases h
    exact takesInLine_char hspaces hin hrest (by decide) (by decide)
  · next rest hrest =>
    obtain ⟨note, hnote, hcomment⟩ := Passes.comment hrest
    exact takesInLine_lineEnd (hspaces.trans hcomment)
      (fun hkind => ⟨n, .inr ⟨hkind, note, hnote, rfl⟩⟩) h (atEnd_skipWhile_isInLine e)
  · next ch rest _ _ _ _ _ _ hrest =>
    split at h
    · next hch => exact hend h (by simpa [AtEnd, hrest] using hch)
    split at h
    · next hch =>
      cases h
      exact takesInLine_word hspaces hin hrest hch
    · cases h

/-- Inside a line reading a token fails only at a character that begins none. -/
theorem fault_tokenInLine {fault : LocatedFault} (h : c.tokenInLine = .error fault d) :
    ∃ ch n, Passes (spaces n) c d ∧ d.rest.head? = some ch ∧
      fault = ⟨d.location, .unexpectedChar ch⟩ := by
  have hspaces : Passes (c.rest.takeWhile isSpace) c (c.skipWhile isSpace) :=
    .skipWhile (plain_isSpace false) c
  rw [← spaces_takeWhile] at hspaces
  have hend {e : Cursor} : e.lineEndToken ≠ .error fault d := by
    unfold lineEndToken
    split <;> nofun
  unfold tokenInLine at h
  dsimp only at h
  split at h
  case h_1 => exact absurd h hend
  case h_7 => exact absurd h hend
  case h_8 ch rest _ _ _ _ _ _ hrest =>
    split at h
    · exact absurd h hend
    split at h
    · cases h
    · cases h
      exact ⟨ch, _, hspaces, by simp [hrest], rfl⟩
  all_goals cases h

/-- What the text shows at the place of a fault. -/
def Shows (rest : List Char) : SyntaxFault → Prop
  | .unexpectedChar ch => rest.head? = some ch
  | .badEscape => rest.head? = some '$'
  | .expectedIdent => ∀ ch ∈ rest.head?, isIdentChar ch = false
  | .unterminatedBrace => rest.head? ≠ some '\x7d'
  | _ => True

theorem Takes.ahead {gap : List Char} {token : Token} (h : Takes c gap token d) : Ahead c d := by
  cases h with
  | text hgap htext => exact (hgap.trans htext).ahead
  | lineEnd hgap hline => exact (hgap.trans hline).ahead
  | eof hgap => exact hgap.ahead

end Cursor

/-! ## Lexers -/

namespace Manifest

/-- The place between two parts of a text. It is not within a line end. -/
structure IsPlace (text before after : List Char) (location : Location) : Prop where
  text_eq : text = before ++ after
  whole : Whole before after
  location_eq : location = placeAfter before

end Manifest

/-- The fault is reported at a place of the text that shows it. -/
def LocatedFault.FoundIn (text : List Char) (fault : LocatedFault) : Prop :=
  ∃ before after, IsPlace text before after fault.location ∧ Cursor.Shows after fault.fault

namespace Cursor

variable {c d : Cursor} {text : List Char} {token : Token}

end Cursor

namespace Lexer

/-- What can be asked of a lexer. -/
inductive Action where
  | next
  | peek (kind : TokenKind)
  | expect (kind : TokenKind)
  | rewind
  | skipSpaces
  | ident
  | value (mode : ValueMode)
deriving DecidableEq, Repr

/-- What is yielded by an action that succeeds. -/
inductive Answer where
  | nothing
  | token (token : Token)
  | name (name : String)
  | template (mode : ValueMode) (template : Template)

namespace Action

/-- Carries out an action. -/
def perform : Action → Reading Answer
  | .next => .token <$> Lexer.next
  | .peek kind => (·.elim .nothing .token) <$> Lexer.peek kind
  | .expect kind => .token <$> Lexer.expect kind
  | .rewind => (fun _ => .nothing) <$> Lexer.rewind
  | .skipSpaces => (fun _ => .nothing) <$> Lexer.skipSpaces
  | .ident => .name <$> Lexer.ident
  | .value mode => .template mode <$> Lexer.value mode

/-- The lexer after an action, also after one that failed. -/
def after (l : Lexer) (a : Action) : Lexer :=
  match a.perform l with
  | .ok _ l' => l'
  | .error _ l' => l'

end Action

/-- What an action yields stands in the text: a token where it says, and a name or the pieces of a
value as they were read, in front of what is left. -/
def Answer.FoundIn (text rest : List Char) : Answer → Prop
  | .nothing => True
  | .token t => ∃ before after, IsPlace text before (t.text ++ after) t.location ∧
      t.offset = Utf8.size before
  | .name word => ∃ before, text = before ++ (word.toList ++ rest)
  | .template mode t => ∃ before value gap pieces stop, text = before ++ value ∧
      ValueUpTo mode value gap pieces stop ∧ EndsValue mode stop ∧ t = pieces.foldl Piece.add .empty

/-- Both positions were come by from the start of the text. -/
structure Within (text : List Char) (l : Lexer) : Prop where
  cursor : Cursor.Ahead (.start text) l.cursor
  saved : Cursor.Ahead (.start text) l.saved

variable {α : Type} {text : List Char} {l : Lexer}

/-- An action leaves the lexer within the text, and what it yields or reports is found there. -/
def Keeps (text : List Char) (P : α → List Char → Prop) :
    EStateM.Result LocatedFault Lexer α → Prop
  | .ok a l => l.Within text ∧ P a l.cursor.rest
  | .error fault l => l.Within text ∧ fault.FoundIn text

theorem Keeps.map {P : α → List Char → Prop} {Q : Answer → List Char → Prop} {f : α → Answer}
    {work : Reading α} (h : Keeps text P (work l)) (hf : ∀ a rest, P a rest → Q (f a) rest) :
    Keeps text Q ((f <$> work) l) := by
  show Keeps text Q (EStateM.map f work l)
  unfold EStateM.map
  cases hwork : work l with
  | ok a l' =>
    rw [hwork] at h
    exact ⟨h.1, hf a _ h.2⟩
  | error fault l' =>
    rw [hwork] at h
    exact h

end Lexer

end Rebuild
