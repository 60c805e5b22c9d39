import Rebuild.Manifest.Clause
import Rebuild.Proofs.Echo
import Rebuild.Proofs.Manifest.Tokens
import Rebuild.Proofs.Manifest.Values
import Rebuild.Proofs.Sequence

/-!
# Clauses in step

A lexer whose cursor shares a line with that of another one echoes it: the clauses of a statement
are the same for both, apart from the places at which they stand.
-/

namespace Rebuild

open Manifest

namespace Lexer

open Sequence (bind_eq_ok bind_of_ok)

/-- How many characters are left. -/
def left (l : Lexer) : Nat := l.cursor.rest.length

/-- The cursors of two lexers are related. -/
def On (P : Cursor → Cursor → Prop) (l m : Lexer) : Prop := P l.cursor m.cursor

variable {α : Type} {escapes : Bool} {R : List Char → List Char → Prop}
  {P : Cursor → Cursor → Prop} {kind : TokenKind}

theorem echoes_withCursor {read : Cursor → Cursor.Outcome α} {Q : α → Cursor → Cursor → Prop}
    (h : ∀ c d, P c d → ∀ a c', read c = .ok a c' → c'.rest.length ≤ c.rest.length ∧
      ∃ d', read d = .ok a d' ∧ Q a c' d') :
    Echoes left (On P) (withCursor read) (withCursor read) Eq fun a => On (Q a) := by
  intro l m hP a l' hread
  unfold withCursor at hread
  split at hread
  · next c' hc =>
    cases hread
    obtain ⟨hle, d', hd, hQ⟩ := h _ _ hP a c' hc
    exact ⟨hle, a, { m with cursor := d' }, by rw [withCursor, hd], rfl, hQ⟩
  · cases hread

theorem echoes_location : Echoes left (On P) location location (fun _ _ => True) fun _ => On P := by
  rintro l m hP _ _ ⟨⟩
  exact ⟨Nat.le_refl _, _, m, rfl, trivial, hP⟩

theorem echoes_skipSpaces : Echoes left (On (Cursor.SharesLine escapes R)) skipSpaces skipSpaces Eq
    fun _ => On (Cursor.SharesLine escapes R) := by
  rintro l m h _ _ ⟨⟩
  refine ⟨Cursor.length_skipWhile_le isSpace l.cursor, _, _, rfl, rfl, ?_⟩
  exact Cursor.SharesLine.skipWhile ⟨rfl, rfl, h.rest⟩ (plain_isSpace escapes)

/-- A name may also be read from the start of the line. -/
theorem echoes_ident_entered :
    Echoes left (On fun c d => Cursor.SharesLine escapes R c.inLine d.inLine) ident ident Eq
      fun _ => On (Cursor.SharesLine escapes R) :=
  echoes_withCursor fun _ _ h _ _ hread =>
    ⟨Nat.le_of_lt (Cursor.length_ident_lt hread), h.ident hread⟩

theorem echoes_ident : Echoes left (On (Cursor.SharesLine escapes R)) ident ident Eq
    fun _ => On (Cursor.SharesLine escapes R) :=
  echoes_ident_entered.before fun _ _ h => ⟨rfl, rfl, h.rest⟩

theorem echoes_value (mode : ValueMode) : Echoes left (On (Cursor.SharesLine true R)) (value mode)
    (value mode) Eq fun _ => On (Cursor.AfterValue R mode) :=
  echoes_withCursor fun _ _ h _ _ hread =>
    ⟨Cursor.length_value_le hread, Cursor.SharesLine.value ⟨rfl, rfl, h.rest⟩ hread⟩

theorem withCursor_eq_ok {read : Cursor → Cursor.Outcome α} {l l' : Lexer} {a : α}
    (h : withCursor read l = .ok a l') : read l.cursor = .ok a l'.cursor := by
  unfold withCursor at h
  split at h
  · next hread => cases h; exact hread
  · cases h

/-! ## Tokens -/

theorem next_of_ok {l : Lexer} {token : Token} {c : Cursor} (h : l.cursor.nextToken = .ok token c) :
    next l = .ok token ⟨c, l.cursor⟩ := by
  rw [next, h]

theorem next_eq_ok {l l' : Lexer} {token : Token} (h : next l = .ok token l') :
    l.cursor.nextToken = .ok token l'.cursor ∧ l'.saved = l.cursor := by
  unfold next at h
  split at h
  · next heq => cases h; exact ⟨heq, rfl⟩
  · cases h

theorem echoes_next {Q : TokenKind → Cursor → Cursor → Prop}
    (h : ∀ c d, P c d → ∀ token c', c.nextToken = .ok token c' →
      ∃ token' d', d.nextToken = .ok token' d' ∧ token.kind = token'.kind ∧ Q token.kind c' d') :
    Echoes left (On P) next next (fun token token' => token.kind = token'.kind)
      fun token => On (Q token.kind) := by
  intro l m hP token l' hread
  obtain ⟨hc, -⟩ := next_eq_ok hread
  obtain ⟨token', d', hd, hkind, hQ⟩ := h _ _ hP token l'.cursor hc
  exact ⟨(Cursor.forward_nextToken hc).1, token', _, next_of_ok hd, hkind, hQ⟩

/-- A token that may be taken is taken in step, and if it is left both lexers are as before. -/
theorem echoes_peek {Q : TokenKind → Cursor → Cursor → Prop}
    (h : Echoes left (On P) next next (fun token token' => token.kind = token'.kind)
      fun token => On (Q token.kind)) :
    Echoes left (On P) (peek kind) (peek kind) (fun a b => a.isSome = b.isSome)
      fun a => On (if a.isSome then Q kind else P) := by
  intro l m hP a l' hread
  unfold peek at hread
  split at hread
  · next token l₁ hnext =>
    obtain ⟨hle, token', m₁, hnext', hkind, hQ⟩ := h hP hnext
    split at hread
    · next hk =>
      cases hread
      refine ⟨hle, some token', m₁, ?_, rfl, hk ▸ hQ⟩
      simp only [peek, hnext', ← hkind, hk, if_true]
    · next hk =>
      cases hread
      refine ⟨Nat.le_refl _, none, m, ?_, rfl, hP⟩
      simp only [peek, hnext', ← hkind, hk, if_false]
  · cases hread

theorem left_peek_le {l l' : Lexer} {token : Option Token} (h : peek kind l = .ok token l') :
    l'.left ≤ l.left := by
  unfold peek at h
  split at h
  · next hnext =>
    split at h
    · cases h
      exact (Cursor.forward_nextToken (next_eq_ok hnext).1).1
    · cases h
      exact Nat.le_refl _
  · cases h

theorem left_expect_le {l l' : Lexer} {token : Token} (h : expect kind l = .ok token l') :
    l'.left ≤ l.left := by
  obtain ⟨token, l', hnext, h⟩ := bind_eq_ok.mp h
  split at h
  · cases h
    exact (Cursor.forward_nextToken (next_eq_ok hnext).1).1
  · cases h

/-- A token that has to be there is there for both, unless it is the end of the line. -/
theorem echoes_expect (escapes : Bool) (hkind : ¬(kind = .newline ∨ kind = .eof))
    (hafter : Cursor.After escapes R kind = Cursor.SharesLine escapes R) :
    Echoes left (On (Cursor.SharesLine escapes R)) (expect kind) (expect kind) (fun _ _ => True)
      fun _ => On (Cursor.SharesLine escapes R) := by
  intro l m h token l' hread
  obtain ⟨token, l', hnext, hread⟩ := bind_eq_ok.mp hread
  obtain ⟨hc, -⟩ := next_eq_ok hnext
  split at hread
  · next hk =>
    cases hread
    have hno : Cursor.NoComment l.cursor :=
      Cursor.noComment_of_kind ((Cursor.nextToken_inside h.inside).symm.trans hc) (hk ▸ hkind)
    obtain ⟨token', d', hd, hkind', hQ⟩ := Cursor.SharesLine.nextToken h (fun _ => hno) hc
    rw [hk, hafter] at hQ
    refine ⟨(Cursor.forward_nextToken hc).1, token', ⟨d', m.cursor⟩, ?_, trivial, hQ⟩
    rw [expect, bind_of_ok _ (next_of_ok hd), ← hkind', if_pos hk]
    rfl
  · cases hread

end Lexer

namespace Manifest

open Lexer
open Sequence (bind_congr bind_congr_left)

variable {escapes : Bool} {R : List Char → List Char → Prop} {n : Nat}

/-- Nothing that could be taken for a comment comes after a list of paths. -/
def AtSeparator (R : List Char → List Char → Prop) (c d : Cursor) : Prop :=
  Cursor.SharesLine true R c d ∧ Cursor.NoComment c

/-- The same paths, wherever they are written. -/
def SameWritten (paths paths' : List WrittenPath) : Prop :=
  paths.map (·.template) = paths'.map (·.template)

theorem SameWritten.isEmpty_iff {paths paths' : List WrittenPath} (h : SameWritten paths paths') :
    paths.isEmpty = true ↔ paths'.isEmpty = true := by
  have := congrArg List.isEmpty h
  simp only [List.isEmpty_map] at this
  rw [this]

theorem echoes_binding : Echoes left
    (On fun c d => Cursor.SharesLine true R c.inLine d.inLine) binding binding Eq
      fun _ => On (Cursor.EndsLine R) := by
  refine echoes_ident_entered.bind fun name _ hname => ?_
  subst hname
  refine (echoes_expect true (by decide) rfl).bind fun _ _ _ => ?_
  refine (echoes_value .line).bind fun value _ hvalue => ?_
  subst hvalue
  exact .pure rfl fun _ _ => id

/-- Between lines an indentation is seen by both lexers or by none. -/
def Steady (R : List Char → List Char → Prop) : Prop :=
  Echoes left (On (Cursor.EndsLine R)) (peek .indent) (peek .indent)
    (fun a b => a.isSome = b.isSome)
      fun a => On (if a.isSome then Cursor.SharesLine true R else Cursor.EndsLine R)

theorem LinesUp.steady (hR : LinesUp R) : Steady R :=
  echoes_peek (echoes_next fun _ _ h _ _ hc => Cursor.EndsLine.nextToken hR h hc)

theorem left_binding_lt {l l' : Lexer} {result : String × Template}
    (h : binding l = .ok result l') : l'.left < l.left := by
  obtain ⟨name, l₁, hname, h⟩ := Sequence.bind_eq_ok.mp h
  obtain ⟨token, l₂, htoken, h⟩ := Sequence.bind_eq_ok.mp h
  obtain ⟨value, l₃, hvalue, h⟩ := Sequence.bind_eq_ok.mp h
  cases h
  calc l'.left ≤ l₂.left := Cursor.length_value_le (withCursor_eq_ok hvalue)
    _ ≤ l₁.left := left_expect_le htoken
    _ < l.left := Cursor.length_ident_lt (withCursor_eq_ok hname)

theorem echoes_path : Echoes left
    (fun l m => On (Cursor.SharesLine true R) l m ∧ l.left < n + 1) (Lexer.value .path)
      (Lexer.value .path) Eq fun path l m => On (Cursor.SharesLine true R) l m ∧
        if path.isEmpty then Cursor.NoComment l.cursor else l.left < n := by
  intro l m h path l' hread
  obtain ⟨hle, path', m', hread', rfl, hafter⟩ := echoes_value .path h.1 hread
  refine ⟨hle, path, m', hread', rfl, hafter, ?_⟩
  split
  · next hempty => exact Cursor.noComment_of_isEmpty (withCursor_eq_ok hread) hempty
  · next hempty =>
    have hlt : l'.left < l.left :=
      Cursor.length_value_lt (withCursor_eq_ok hread) (Bool.eq_false_iff.mpr hempty)
    exact Nat.lt_of_lt_of_le hlt (Nat.le_of_lt_succ h.2)

theorem echoes_pathsUpTo {m : Nat} (hm : n ≤ m) : Echoes left
    (fun l l' => On (Cursor.SharesLine true R) l l' ∧ l.left < n) (pathsUpTo n) (pathsUpTo m)
      SameWritten fun _ => On (AtSeparator R) := by
  induction n generalizing m with
  | zero => exact fun _ _ h => absurd h.2 (Nat.not_lt_zero _)
  | succ n ih =>
    obtain ⟨m, rfl⟩ : ∃ k, m = k + 1 := ⟨m - 1, by omega⟩
    refine (echoes_skipSpaces.within _).bind fun _ _ _ => ?_
    refine (echoes_location.within _).bind fun place place' _ => ?_
    refine echoes_path.bind fun path _ hpath => ?_
    subst hpath
    split
    · next hempty => exact .pure rfl fun l l' h => ⟨h.1, by simpa [hempty] using h.2⟩
    · next hempty =>
      have hmore := ih (m := m) (by omega)
      refine (hmore.before fun l l' h => ⟨h.1, by simpa [hempty] using h.2⟩).bind
        fun more more' hmore => ?_
      exact .pure (congrArg (path :: ·) hmore) fun _ _ => id

/-- A bound on the number of paths that is larger than what is left is never met. -/
theorem pathsUpTo_of_le {m : Nat} {l : Lexer} (hn : l.left < n) (hm : n ≤ m) :
    pathsUpTo m l = pathsUpTo n l := by
  induction n generalizing m l with
  | zero => exact absurd hn (Nat.not_lt_zero _)
  | succ n ih =>
    obtain ⟨m, rfl⟩ : ∃ k, m = k + 1 := ⟨m - 1, by omega⟩
    rw [pathsUpTo, pathsUpTo]
    refine bind_congr fun _ l₁ hspaces => bind_congr fun place l₂ hplace =>
      bind_congr fun path l₃ hpath => ?_
    cases hspaces
    cases hplace
    split
    · rfl
    · next hempty =>
      refine bind_congr_left (ih ?_ (by omega))
      calc l₃.left < (l.cursor.inLine.skipWhile isSpace).rest.length :=
            Cursor.length_value_lt (withCursor_eq_ok hpath) (Bool.eq_false_iff.mpr hempty)
        _ ≤ l.left := Cursor.length_skipWhile_le isSpace l.cursor.inLine
        _ ≤ n := Nat.le_of_lt_succ hn

theorem echoes_paths : Echoes left (On (Cursor.SharesLine true R)) paths paths SameWritten
    fun _ => On (AtSeparator R) := by
  intro l m h places l' hrun
  have hpaths : paths m = pathsUpTo (max (l.left + 1) (m.left + 1)) m :=
    (pathsUpTo_of_le (Nat.lt_succ_self _) (Nat.le_max_right ..)).symm
  rw [hpaths]
  exact echoes_pathsUpTo (Nat.le_max_left ..) ⟨h, Nat.lt_succ_self _⟩ hrun

theorem echoes_pathsAfter {separator : TokenKind}
    (hafter : Cursor.After true R separator = Cursor.SharesLine true R) :
    Echoes left (On (AtSeparator R)) (pathsAfter separator) (pathsAfter separator) SameWritten
      fun _ => On (AtSeparator R) := by
  refine (echoes_peek (echoes_next fun c d h token c' hc =>
    Cursor.SharesLine.nextToken h.1 (fun _ => h.2) hc)).bind fun token token' htoken => ?_
  cases token with
  | some token =>
    obtain ⟨token', rfl⟩ := Option.isSome_iff_exists.mp htoken.symm
    refine echoes_paths.before fun l m h => ?_
    rw [← hafter]
    exact h
  | none =>
    obtain rfl := Option.isNone_iff_eq_none.mp (by simpa using htoken.symm)
    exact .pure rfl fun _ _ => id

/-- The end of a line that has no comment in which an escape could be hidden. -/
theorem echoes_lineEnd (escapes : Bool) : Echoes left
    (On fun c d => Cursor.SharesLine escapes R c d ∧ (escapes = true → Cursor.NoComment c)) lineEnd
      lineEnd Eq fun _ => On (Cursor.EndsLine R) := by
  refine (echoes_next fun c d h token c' hc => Cursor.SharesLine.nextToken h.1 h.2 hc).bind
    fun token token' hkind => ?_
  rw [← hkind]
  split
  · next hend =>
    refine .pure rfl fun l m h => ?_
    obtain hk | hk := hend
    · rw [hk] at h; exact .inl h
    · rw [hk] at h; exact .inr h
  · exact .throw _ _

theorem echoes_nameLine : Echoes left (On (Cursor.SharesLine false R)) nameLine nameLine
    (fun a b => a.2 = b.2) fun _ => On (Cursor.EndsLine R) := by
  refine echoes_skipSpaces.bind fun _ _ _ => ?_
  refine echoes_location.bind fun place place' _ => ?_
  refine echoes_ident.bind fun name _ hname => ?_
  subst hname
  refine ((echoes_lineEnd false).before fun l m h => ⟨h, nofun⟩).bind fun _ _ _ => ?_
  exact .pure rfl fun _ _ => id

/-- The same line of a build statement, wherever it is written. -/
structure SameBuildLine (line line' : BuildLine) : Prop where
  explicitOuts : SameWritten line.explicitOuts line'.explicitOuts
  implicitOuts : SameWritten line.implicitOuts line'.implicitOuts
  ruleName : line.ruleName = line'.ruleName
  explicitIns : SameWritten line.explicitIns line'.explicitIns
  implicitIns : SameWritten line.implicitIns line'.implicitIns
  orderOnlyIns : SameWritten line.orderOnlyIns line'.orderOnlyIns
  validations : SameWritten line.validations line'.validations

theorem echoes_buildLine : Echoes left (On (Cursor.SharesLine true R)) buildLine buildLine
    SameBuildLine fun _ => On (Cursor.EndsLine R) := by
  refine echoes_paths.bind fun explicitOuts explicitOuts' hexplicitOuts => ?_
  refine .ite hexplicitOuts.isEmpty_iff (echoes_location.bind fun _ _ _ => .throw_bind ..) ?_
  refine (echoes_pathsAfter rfl).bind fun implicitOuts implicitOuts' himplicitOuts => ?_
  refine ((echoes_expect true (by decide) rfl).before fun _ _ h => h.1).bind
    fun _ _ _ => ?_
  refine echoes_skipSpaces.bind fun _ _ _ => ?_
  refine echoes_location.bind fun rulePlace rulePlace' _ => ?_
  refine echoes_ident.bind fun ruleName ruleName' hruleName => ?_
  refine echoes_paths.bind fun explicitIns explicitIns' hexplicitIns => ?_
  refine (echoes_pathsAfter rfl).bind fun implicitIns implicitIns' himplicitIns => ?_
  refine (echoes_pathsAfter rfl).bind fun orderOnlyIns orderOnlyIns' horderOnlyIns => ?_
  refine (echoes_pathsAfter rfl).bind fun validations validations' hvalidations => ?_
  refine ((echoes_lineEnd true).before fun _ _ h => ⟨h.1, fun _ => h.2⟩).bind
    fun _ _ _ => ?_
  exact .pure ⟨hexplicitOuts, himplicitOuts, hruleName, hexplicitIns, himplicitIns, horderOnlyIns,
    hvalidations⟩ fun _ _ => id

theorem echoes_targetLine : Echoes left (On (Cursor.SharesLine true R)) targetLine targetLine
    SameWritten fun _ => On (Cursor.EndsLine R) := by
  refine echoes_paths.bind fun targets targets' htargets => ?_
  refine .ite htargets.isEmpty_iff (echoes_location.bind fun _ _ _ => .throw_bind ..) ?_
  refine ((echoes_lineEnd true).before fun _ _ h => ⟨h.1, fun _ => h.2⟩).bind
    fun _ _ _ => ?_
  exact .pure htargets fun _ _ => id

theorem echoes_pathLine : Echoes left (On (Cursor.SharesLine true R)) pathLine pathLine
    (fun a b => a.template = b.template) fun _ => On (Cursor.EndsLine R) := by
  refine echoes_skipSpaces.bind fun _ _ _ => ?_
  refine echoes_location.bind fun place place' _ => ?_
  exact (echoes_value .line).bind fun path _ hpath => .pure hpath fun _ _ => id

end Manifest

end Rebuild
