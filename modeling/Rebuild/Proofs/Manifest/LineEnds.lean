import Rebuild.Proofs.Manifest.Comments
import Rebuild.Proofs.Manifest.Endings
import Rebuild.Proofs.Mirror

/-!
# How lines end does not matter

Lexers that stand abreast in texts whose lines end differently read the same clauses, down to the
places of every path, so statements do the same to a graph and fail in the same way. A manifest
written with other line ends is loaded alike.

The loops over paths, bindings and statements are bounded by the lengths of the texts, which differ.
Both bounds are carried along: fewer than `n` characters are left in the first text and fewer than
`m` in the second.
-/

namespace Rebuild

open Manifest

namespace Lexer

/-- Lexers stand abreast, in texts of which fewer than `n` and `m` characters are left. -/
structure Abreast (n m : Nat) (l l' : Lexer) : Prop where
  cursor : l.cursor.Abreast l'.cursor
  saved : l.saved.Abreast l'.saved
  left : l.left < n
  left' : l'.left < m

theorem Abreast.mono {n m k j : Nat} {l l' : Lexer} (h : Abreast n m l l') (hn : n ≤ k)
    (hm : m ≤ j) : Abreast k j l l' :=
  ⟨h.cursor, h.saved, Nat.lt_of_lt_of_le h.left hn, Nat.lt_of_lt_of_le h.left' hm⟩

/-- Nothing is said about where lexers stop at a fault. -/
def Anywhere (_ _ : Lexer) : Prop := True

variable {α : Type} {n m : Nat} {kind : TokenKind}

theorem withCursor_of_ok {read : Cursor → Cursor.Outcome α} {l : Lexer} {a : α} {c : Cursor}
    (h : read l.cursor = .ok a c) : withCursor read l = .ok a { l with cursor := c } := by
  rw [withCursor, h]

theorem withCursor_of_error {read : Cursor → Cursor.Outcome α} {l : Lexer} {fault : LocatedFault}
    {c : Cursor} (h : read l.cursor = .error fault c) :
    withCursor read l = .error fault { l with cursor := c } := by
  rw [withCursor, h]

/-- A reader that never goes back mirrors itself. What it leaves is bounded by `k` and `j`. -/
theorem mirrors_withCursor {read : Cursor → Cursor.Outcome α} {k j : α → Nat}
    (hread : ∀ c d, c.Abreast d → Cursor.Agree Eq (read c) (read d))
    (hleft : ∀ c a c', read c = .ok a c' → (c.rest.length < n → c'.rest.length < k a) ∧
      (c.rest.length < m → c'.rest.length < j a)) :
    Mirrors (Abreast n m) (withCursor read) (withCursor read) Eq (fun a => Abreast (k a) (j a))
      Anywhere := by
  intro l l' h
  obtain ⟨a, c, d, hc, hd, hcd⟩ | ⟨fault, c, d, hc, hd⟩ := (hread _ _ h.cursor).cases
  · exact .inl ⟨a, a, _, _, withCursor_of_ok hc, withCursor_of_ok hd, rfl,
      ⟨hcd, h.saved, (hleft _ _ _ hc).1 h.left, (hleft _ _ _ hd).2 h.left'⟩⟩
  · exact .inr ⟨fault, _, _, withCursor_of_error hc, withCursor_of_error hd, trivial⟩

theorem mirrors_location :
    Mirrors (Abreast n m) location location Eq (fun _ => Abreast n m) Anywhere :=
  fun l l' h => .inl ⟨_, _, l, l', rfl, rfl, h.cursor.location, h⟩

theorem mirrors_skipSpaces :
    Mirrors (Abreast n m) skipSpaces skipSpaces Eq (fun _ => Abreast n m) Anywhere := by
  intro l l' h
  have hle (c : Cursor) := Cursor.length_skipWhile_le isSpace c.inLine
  exact .inl ⟨(), (), _, _, rfl, rfl, rfl, h.cursor.inLine.skipWhile inLine_isSpace, h.saved,
    Nat.lt_of_le_of_lt (hle _) h.left, Nat.lt_of_le_of_lt (hle _) h.left'⟩

theorem mirrors_ident : Mirrors (Abreast (n + 1) (m + 1)) ident ident Eq (fun _ => Abreast n m)
    Anywhere :=
  mirrors_withCursor (fun _ _ h => h.ident) fun _ _ _ h =>
    have hlt := Cursor.length_ident_lt h
    ⟨fun hn => by omega, fun hm => by omega⟩

theorem mirrors_value (mode : ValueMode) : Mirrors (Abreast n m) (value mode) (value mode) Eq
    (fun _ => Abreast n m) Anywhere :=
  mirrors_withCursor (fun _ _ h => h.value mode) fun _ _ _ h =>
    have hle := Cursor.length_value_le h
    ⟨Nat.lt_of_le_of_lt hle, Nat.lt_of_le_of_lt hle⟩

/-- Unless it is empty, less is left after a value. -/
theorem mirrors_value_lower (mode : ValueMode) : Mirrors (Abreast (n + 1) (m + 1)) (value mode)
    (value mode) Eq
    (fun value => Abreast (if value.isEmpty then n + 1 else n) (if value.isEmpty then m + 1 else m))
    Anywhere := by
  refine mirrors_withCursor (fun _ _ h => h.value mode) fun c a c' h => ?_
  cases ha : a.isEmpty with
  | true =>
    have hle := Cursor.length_value_le h
    exact ⟨Nat.lt_of_le_of_lt hle, Nat.lt_of_le_of_lt hle⟩
  | false =>
    have hlt := Cursor.length_value_lt h ha
    exact ⟨fun hn => Nat.lt_of_lt_of_le hlt (Nat.le_of_lt_succ hn),
      fun hm => Nat.lt_of_lt_of_le hlt (Nat.le_of_lt_succ hm)⟩

theorem mirrors_next :
    Mirrors (Abreast n m) next next Token.SameAs (fun _ => Abreast n m) Anywhere := by
  intro l l' h
  have hagree := h.cursor.nextToken
  cases hc : l.cursor.nextToken with
  | ok token c =>
    cases hd : l'.cursor.nextToken with
    | ok token' d =>
      rw [hc, hd] at hagree
      refine .inl ⟨token, token', ⟨c, l.cursor⟩, ⟨d, l'.cursor⟩, next_of_ok hc, next_of_ok hd,
        hagree.1, hagree.2, h.cursor, ?_, ?_⟩
      · exact Nat.lt_of_le_of_lt (Cursor.forward_nextToken hc).1 h.left
      · exact Nat.lt_of_le_of_lt (Cursor.forward_nextToken hd).1 h.left'
    | error fault' d =>
      rw [hc, hd] at hagree
      exact hagree.elim
  | error fault c =>
    cases hd : l'.cursor.nextToken with
    | ok token' d =>
      rw [hc, hd] at hagree
      exact hagree.elim
    | error fault' d =>
      rw [hc, hd] at hagree
      obtain rfl : fault = fault' := hagree
      exact .inr ⟨fault, ⟨c, l.cursor⟩, ⟨d, l'.cursor⟩, by rw [next, hc], by rw [next, hd], trivial⟩

/-- A token was taken, which both lexers may take back. -/
structure Taken (n m : Nat) (l l' : Lexer) : Prop extends Abreast n m l l' where
  savedLeft : l.saved.rest.length < n + 1
  savedLeft' : l'.saved.rest.length < m + 1

/-- Unless it is the end of the text, less is left after a token. -/
theorem mirrors_next_lower : Mirrors (Abreast (n + 1) (m + 1)) next next Token.SameAs
    (fun token => if token.kind = .eof then Abreast (n + 1) (m + 1) else Taken n m) Anywhere := by
  intro l l' h
  obtain ⟨token, token', l₁, l₁', hnext, hnext', hsame, h₁⟩ | herror := mirrors_next h
  · refine .inl ⟨token, token', l₁, l₁', hnext, hnext', hsame, ?_⟩
    by_cases heof : token.kind = .eof
    · simpa only [heof, if_true] using h₁
    simp only [heof, if_false]
    obtain ⟨hc, hsaved⟩ := next_eq_ok hnext
    obtain ⟨hd, hsaved'⟩ := next_eq_ok hnext'
    have hlt := (Cursor.forward_nextToken hc).2 heof
    have hlt' := (Cursor.forward_nextToken hd).2 (hsame.1 ▸ heof)
    exact ⟨⟨h₁.cursor, h₁.saved, Nat.lt_of_lt_of_le hlt (Nat.le_of_lt_succ h.left),
      Nat.lt_of_lt_of_le hlt' (Nat.le_of_lt_succ h.left')⟩, hsaved ▸ h.left, hsaved' ▸ h.left'⟩
  · exact .inr herror

theorem mirrors_rewind :
    Mirrors (Taken n m) rewind rewind Eq (fun _ => Abreast (n + 1) (m + 1)) Anywhere :=
  fun _ _ h => .inl ⟨(), (), _, _, rfl, rfl, rfl, h.saved, h.saved, h.savedLeft, h.savedLeft'⟩

/-- A token that is not taken leaves both lexers as they were. -/
theorem mirrors_peek : Mirrors (Abreast n m) (peek kind) (peek kind)
    (fun token token' => token.isSome = token'.isSome) (fun _ => Abreast n m) Anywhere := by
  intro l l' h
  obtain ⟨token, token', l₁, l₁', hnext, hnext', hsame, h₁⟩ | ⟨fault, l₁, l₁', hnext, hnext', -⟩ :=
    mirrors_next h
  · have hkind := hsame.1
    by_cases hk : token.kind = kind
    · refine .inl ⟨some token, some token', l₁, l₁', ?_, ?_, rfl, h₁⟩
      · rw [peek, hnext]
        exact if_pos hk
      · rw [peek, hnext']
        exact if_pos (hkind ▸ hk)
    · refine .inl ⟨none, none, l, l', ?_, ?_, rfl, h⟩
      · rw [peek, hnext]
        exact if_neg hk
      · rw [peek, hnext']
        exact if_neg (hkind ▸ hk)
  · exact .inr ⟨fault, l₁, l₁', by rw [peek, hnext], by rw [peek, hnext'], trivial⟩

theorem mirrors_expect : Mirrors (Abreast n m) (expect kind) (expect kind) (fun _ _ => True)
    (fun _ => Abreast n m) Anywhere := by
  refine mirrors_next.bind fun token token' ⟨hkind, hplace, _⟩ => ?_
  rw [hkind, hplace]
  exact .ite Iff.rfl (.pure trivial fun _ _ => id) (.throw _ fun _ _ _ => trivial)

end Lexer

namespace Manifest

open Lexer (Abreast Anywhere)

variable {α σ : Type} {n m : Nat} {kind : TokenKind} {file : SourceFile}

/-! ## Clauses -/

theorem mirrors_binding : Mirrors (Abreast (n + 1) (m + 1)) binding binding Eq
    (fun _ => Abreast n m) Anywhere := by
  refine Lexer.mirrors_ident.bindEq fun name => ?_
  refine Lexer.mirrors_expect.bind fun _ _ _ => ?_
  exact (Lexer.mirrors_value .line).bindEq fun value => .pure rfl fun _ _ => id

theorem mirrors_pathsUpTo :
    Mirrors (Abreast n m) (pathsUpTo n) (pathsUpTo m) Eq (fun _ => Abreast n m) Anywhere := by
  induction n generalizing m with
  | zero => exact fun _ _ h => absurd h.left (Nat.not_lt_zero _)
  | succ n ih =>
    cases m with
    | zero => exact fun _ _ h => absurd h.left' (Nat.not_lt_zero _)
    | succ m =>
      refine Lexer.mirrors_skipSpaces.bindEq fun _ => ?_
      refine Lexer.mirrors_location.bindEq fun place => ?_
      refine (Lexer.mirrors_value_lower .path).bindEq fun path => ?_
      cases path.isEmpty with
      | true => exact .pure rfl fun _ _ => id
      | false =>
        exact ih.bindEq fun more => .pure rfl fun _ _ h => h.mono (Nat.le_succ n) (Nat.le_succ m)

theorem mirrors_paths :
    Mirrors (Abreast n m) paths paths Eq (fun _ => Abreast n m) Anywhere := by
  intro l l' h
  have hbounded : Abreast (l.left + 1) (l'.left + 1) l l' :=
    ⟨h.cursor, h.saved, Nat.lt_succ_self _, Nat.lt_succ_self _⟩
  obtain ⟨paths, _, l₁, l₁', hrun, hrun', rfl, h₁⟩ | herror := mirrors_pathsUpTo hbounded
  · exact .inl ⟨paths, paths, l₁, l₁', hrun, hrun', rfl, h₁.mono h.left h.left'⟩
  · exact .inr herror

theorem mirrors_pathsAfter : Mirrors (Abreast n m) (pathsAfter kind) (pathsAfter kind) Eq
    (fun _ => Abreast n m) Anywhere := by
  refine Lexer.mirrors_peek.bind fun token token' htoken => ?_
  cases token with
  | some token =>
    obtain ⟨token', rfl⟩ := Option.isSome_iff_exists.mp htoken.symm
    exact mirrors_paths
  | none =>
    obtain rfl := Option.isNone_iff_eq_none.mp (by simpa using htoken.symm)
    exact .pure rfl fun _ _ => id

theorem mirrors_lineEnd :
    Mirrors (Abreast n m) lineEnd lineEnd Eq (fun _ => Abreast n m) Anywhere := by
  refine Lexer.mirrors_next.bind fun token token' ⟨hkind, hplace, _⟩ => ?_
  rw [hkind, hplace]
  exact .ite Iff.rfl (.pure rfl fun _ _ => id) (.throw _ fun _ _ _ => trivial)

theorem mirrors_ident :
    Mirrors (Abreast n m) Lexer.ident Lexer.ident Eq (fun _ => Abreast n m) Anywhere :=
  Lexer.mirrors_ident.before fun _ _ h => h.mono (Nat.le_succ n) (Nat.le_succ m)

theorem mirrors_nameLine :
    Mirrors (Abreast n m) nameLine nameLine Eq (fun _ => Abreast n m) Anywhere := by
  refine Lexer.mirrors_skipSpaces.bindEq fun _ => ?_
  refine Lexer.mirrors_location.bindEq fun place => ?_
  refine mirrors_ident.bindEq fun name => ?_
  exact mirrors_lineEnd.bindEq fun _ => .pure rfl fun _ _ => id

theorem mirrors_buildLine :
    Mirrors (Abreast n m) buildLine buildLine Eq (fun _ => Abreast n m) Anywhere := by
  refine mirrors_paths.bindEq fun explicitOuts => ?_
  refine .ite Iff.rfl
    (Lexer.mirrors_location.bindEq fun _ => .throw_bind _ fun _ _ _ => trivial) ?_
  refine mirrors_pathsAfter.bindEq fun implicitOuts => ?_
  refine Lexer.mirrors_expect.bind fun _ _ _ => ?_
  refine Lexer.mirrors_skipSpaces.bindEq fun _ => ?_
  refine Lexer.mirrors_location.bindEq fun rulePlace => ?_
  refine mirrors_ident.bindEq fun ruleName => ?_
  refine mirrors_paths.bindEq fun explicitIns => ?_
  refine mirrors_pathsAfter.bindEq fun implicitIns => ?_
  refine mirrors_pathsAfter.bindEq fun orderOnlyIns => ?_
  refine mirrors_pathsAfter.bindEq fun validations => ?_
  exact mirrors_lineEnd.bindEq fun _ => .pure rfl fun _ _ => id

theorem mirrors_targetLine :
    Mirrors (Abreast n m) targetLine targetLine Eq (fun _ => Abreast n m) Anywhere := by
  refine mirrors_paths.bindEq fun targets => ?_
  refine .ite Iff.rfl
    (Lexer.mirrors_location.bindEq fun _ => .throw_bind _ fun _ _ _ => trivial) ?_
  exact mirrors_lineEnd.bindEq fun _ => .pure rfl fun _ _ => id

theorem mirrors_pathLine :
    Mirrors (Abreast n m) pathLine pathLine Eq (fun _ => Abreast n m) Anywhere := by
  refine Lexer.mirrors_skipSpaces.bindEq fun _ => ?_
  refine Lexer.mirrors_location.bindEq fun place => ?_
  exact (Lexer.mirrors_value .line).bindEq fun path => .pure rfl fun _ _ => id

/-! ## Statements -/

/-- The graph is the same, also where loading fails. -/
abbrev SameGraph : Loader → Loader → Prop :=
  Alike Anywhere

variable {P : Lexer → Lexer → Prop}

theorem mirrors_reading {read read' : Reading α} {V : α → α → Prop} {Q : α → Lexer → Lexer → Prop}
    (h : Mirrors P read read' V Q Anywhere) :
    Mirrors (Alike P) (reading file read) (reading file read') V (fun a => Alike (Q a))
      SameGraph := by
  intro s s' hs
  unfold reading
  obtain ⟨a, a', l, l', hrun, hrun', hV, hQ⟩ | ⟨fault, l, l', hrun, hrun', -⟩ := h hs.2
  · rw [hrun, hrun']
    exact .inl ⟨a, a', _, _, rfl, rfl, hV, hs.1, hQ⟩
  · rw [hrun, hrun']
    exact .inr ⟨_, _, _, rfl, rfl, hs.1, trivial⟩

theorem mirrors_inspect (f : Graph → α) :
    Mirrors (Alike P) (inspect f) (inspect f) Eq (fun _ => Alike P) SameGraph :=
  fun s s' hs => .inl ⟨_, _, s, s', rfl, rfl, congrArg f hs.1, hs⟩

theorem mirrors_change (f : Graph → Graph) :
    Mirrors (Alike P) (change f) (change f) Eq (fun _ => Alike P) SameGraph :=
  fun _ _ hs => .inl ⟨(), (), _, _, rfl, rfl, rfl, congrArg f hs.1, hs.2⟩

theorem mirrors_changeGet (f : Graph → α × Graph) :
    Mirrors (Alike P) (changeGet f) (changeGet f) Eq (fun _ => Alike P) SameGraph :=
  fun _ _ hs => .inl ⟨_, _, _, _, rfl, rfl, congrArg (fun g => (f g).1) hs.1,
    congrArg (fun g => (f g).2) hs.1, hs.2⟩

theorem mirrors_faultAt (place : Location) (fault : SyntaxFault) {V : α → α → Prop}
    {Q : α → Loader → Loader → Prop} :
    Mirrors (Alike P) (faultAt file place fault) (faultAt file place fault) V Q SameGraph :=
  .throw _ fun _ _ h => ⟨h.1, trivial⟩

theorem mirrors_faultAt_bind (place : Location) (fault : SyntaxFault) {next next' : α → Load σ}
    {V : σ → σ → Prop} {Q : σ → Loader → Loader → Prop} :
    Mirrors (Alike P) (faultAt file place fault >>= next) (faultAt file place fault >>= next') V Q
      SameGraph :=
  .throw_bind _ fun _ _ h => ⟨h.1, trivial⟩

/-- What only works on the graph does the same for both. -/
theorem mirrors_graph (work : EStateM Error Graph Unit) :
    Mirrors (Alike P)
      (fun s => match work s.graph with
        | .ok _ graph => .ok () { s with graph := graph }
        | .error e graph => .error e { s with graph := graph } : Load Unit)
      (fun s => match work s.graph with
        | .ok _ graph => .ok () { s with graph := graph }
        | .error e graph => .error e { s with graph := graph } : Load Unit) Eq
      (fun _ => Alike P) SameGraph := by
  intro s s' hs
  dsimp only
  rw [← hs.1]
  cases work s.graph with
  | ok _ graph => exact .inl ⟨(), (), _, _, rfl, rfl, rfl, rfl, hs.2⟩
  | error e graph => exact .inr ⟨e, _, _, rfl, rfl, rfl, trivial⟩

/-- Steps between which two texts are not told apart. -/
abbrev Unaware (n m : Nat) (work : Load α) : Prop :=
  Mirrors (Alike (Abreast n m)) work work Eq (fun _ => Alike (Abreast n m)) SameGraph

theorem unaware_resolvePaths (scope : ScopeId) (paths : List WrittenPath) :
    Unaware n m (resolvePaths file scope paths) := by
  induction paths with
  | nil => exact .pure rfl fun _ _ => id
  | cons written paths ih =>
    refine (mirrors_inspect _).bindEq fun path => .ite Iff.rfl (mirrors_faultAt_bind ..) ?_
    refine (mirrors_changeGet _).bindEq fun node => ?_
    exact ih.bindEq fun nodes => .pure rfl fun _ _ => id

theorem mirrors_blockUpTo {step : σ → Location → String → Template → Load σ}
    (hstep : ∀ n m acc place name value, Unaware n m (step acc place name value)) (acc : σ) :
    Mirrors (Alike (Abreast n m)) (blockUpTo file step n acc) (blockUpTo file step m acc) Eq
      (fun _ => Alike (Abreast n m)) SameGraph := by
  induction n generalizing m acc with
  | zero => exact fun _ _ h => absurd h.2.left (Nat.not_lt_zero _)
  | succ n ih =>
    cases m with
    | zero => exact fun _ _ h => absurd h.2.left' (Nat.not_lt_zero _)
    | succ m =>
      refine (mirrors_reading Lexer.mirrors_peek).bind fun token token' htoken => ?_
      cases token with
      | none =>
        obtain rfl := Option.isNone_iff_eq_none.mp (by simpa using htoken.symm)
        exact .pure rfl fun _ _ => id
      | some token =>
        obtain ⟨token', rfl⟩ := Option.isSome_iff_exists.mp htoken.symm
        refine (mirrors_reading Lexer.mirrors_location).bindEq fun place => ?_
        refine (mirrors_reading mirrors_binding).bindEq fun (name, value) => ?_
        refine (hstep n m acc place name value).bindEq fun acc => ?_
        exact (ih acc).after fun _ _ _ h =>
          ⟨h.1, h.2.mono (Nat.le_succ n) (Nat.le_succ m)⟩

theorem unaware_block {step : σ → Location → String → Template → Load σ}
    (hstep : ∀ n m acc place name value, Unaware n m (step acc place name value)) (acc : σ) :
    Unaware n m (block file acc step) := by
  intro s s' hs
  have hbounded : Alike (Abreast (s.left + 1) (s'.left + 1)) s s' :=
    ⟨hs.1, hs.2.cursor, hs.2.saved, Nat.lt_succ_self _, Nat.lt_succ_self _⟩
  exact (mirrors_blockUpTo hstep acc).after
    (fun _ _ _ h => ⟨h.1, h.2.mono hs.2.left hs.2.left'⟩) hbounded

theorem unaware_ruleStatement : Unaware n m (ruleStatement file) := by
  refine (mirrors_reading mirrors_nameLine).bindEq fun (place, name) => ?_
  refine (mirrors_inspect _).bindEq fun taken => .ite Iff.rfl (mirrors_faultAt_bind ..) ?_
  refine (unaware_block (fun n m vars varPlace var value => ?_) ∅).bindEq fun vars => ?_
  · exact .ite Iff.rfl (mirrors_faultAt_bind ..) (.pure rfl fun _ _ => id)
  refine .ite Iff.rfl (mirrors_faultAt_bind ..) ?_
  exact (mirrors_changeGet _).bindEq fun rule => mirrors_change _

theorem unaware_poolStatement : Unaware n m (poolStatement file) := by
  refine (mirrors_reading mirrors_nameLine).bindEq fun (place, name) => ?_
  refine (mirrors_inspect _).bindEq fun found => .ite Iff.rfl (mirrors_faultAt_bind ..) ?_
  refine (unaware_block (fun n m _ varPlace var value => ?_) none).bindEq fun depth => ?_
  · refine .ite Iff.rfl (mirrors_faultAt_bind ..) ((mirrors_inspect _).bindEq fun text => ?_)
    split
    · exact .pure rfl fun _ _ => id
    · exact mirrors_faultAt ..
  cases depth with
  | none => exact mirrors_faultAt ..
  | some depth => exact mirrors_change _

theorem unaware_recipeOf (line : BuildLine) : Unaware n m (recipeOf file line) := by
  refine .ite Iff.rfl (.pure rfl fun _ _ => id) ((mirrors_inspect _).bindEq fun found => ?_)
  split
  · exact .pure rfl fun _ _ => id
  · exact mirrors_faultAt ..

theorem unaware_buildStatement (place : Location) : Unaware n m (buildStatement file place) := by
  refine (mirrors_reading mirrors_buildLine).bindEq fun line => ?_
  refine (unaware_recipeOf line).bindEq fun recipe => ?_
  refine (mirrors_changeGet _).bindEq fun scope => ?_
  refine (unaware_block (fun _ _ _ _ _ _ => mirrors_change _) ()).bindEq fun _ => ?_
  refine (unaware_resolvePaths _ _).bindEq fun explicitOuts => ?_
  refine (unaware_resolvePaths _ _).bindEq fun implicitOuts => ?_
  refine (unaware_resolvePaths _ _).bindEq fun explicitIns => ?_
  refine (unaware_resolvePaths _ _).bindEq fun implicitIns => ?_
  refine (unaware_resolvePaths _ _).bindEq fun orderOnlyIns => ?_
  refine (unaware_resolvePaths _ _).bindEq fun validations => ?_
  refine (mirrors_inspect _).bindEq fun ins => (mirrors_inspect _).bindEq fun outs => ?_
  refine (mirrors_change _).bindEq fun _ => (mirrors_inspect _).bindEq fun added => ?_
  split
  · exact (mirrors_inspect _).bindEq fun _ => mirrors_faultAt ..
  refine (mirrors_change _).bindEq fun _ => (mirrors_inspect _).bindEq fun poolName => ?_
  refine .ite Iff.rfl ((mirrors_inspect _).bindEq fun pool => ?_) (.pure rfl fun _ _ => id)
  split
  · exact mirrors_faultAt ..
  · exact mirrors_change _

theorem unaware_defaultStatement : Unaware n m (defaultStatement file) := by
  refine (mirrors_reading mirrors_targetLine).bindEq fun targets => ?_
  exact (unaware_resolvePaths _ _).bindEq fun nodes => mirrors_change _

theorem unaware_includeStatement (nested : Nested) (ownScope : Bool) :
    Unaware n m (includeStatement nested file ownScope) := by
  refine (mirrors_reading mirrors_pathLine).bindEq fun written => ?_
  refine (mirrors_inspect _).bindEq fun path => .ite Iff.rfl (mirrors_faultAt_bind ..) ?_
  refine .ite Iff.rfl ?_ (mirrors_graph _)
  exact (mirrors_changeGet _).bindEq fun scope => mirrors_graph _

theorem mirrors_bindingStatement : Mirrors (Alike (Lexer.Taken n m)) (bindingStatement file)
    (bindingStatement file) Eq (fun _ => Alike (Abreast n m)) SameGraph := by
  refine (mirrors_reading Lexer.mirrors_rewind).bindEq fun _ => ?_
  exact (mirrors_reading mirrors_binding).bindEq fun (name, value) => mirrors_change _

theorem mirrors_statement (nested : Nested) {token token' : Token} (htoken : token.SameAs token') :
    Mirrors (Alike (Lexer.Taken n m)) (statement nested file token) (statement nested file token')
      Eq (fun _ => Alike (Abreast n m)) SameGraph := by
  obtain ⟨hkind, hplace, -⟩ := htoken
  have hunaware {work : Load Unit} (h : Unaware n m work) :
      Mirrors (Alike (Lexer.Taken n m)) work work Eq (fun _ => Alike (Abreast n m)) SameGraph :=
    h.before fun _ _ hs => ⟨hs.1, hs.2.toAbreast⟩
  unfold statement
  rw [← hkind, ← hplace]
  match token.kind with
  | .eof | .newline => exact hunaware (.pure rfl fun _ _ => id)
  | .build => exact hunaware (unaware_buildStatement _)
  | .rule => exact hunaware unaware_ruleStatement
  | .pool => exact hunaware unaware_poolStatement
  | .default => exact hunaware unaware_defaultStatement
  | .include => exact hunaware (unaware_includeStatement nested false)
  | .subninja => exact hunaware (unaware_includeStatement nested true)
  | .ident => exact mirrors_bindingStatement
  | .indent | .colon | .equals | .pipe | .pipe2 | .pipeAt => exact mirrors_faultAt ..

/-- One statement after the other is carried out alike, up to the end of both texts or to a fault
in both. -/
theorem mirrors_statements (nested : Nested) (file : SourceFile) :
    Mirrors (Alike (Abreast n m)) (statements nested file n) (statements nested file m) Eq
      (fun _ => SameGraph) SameGraph := by
  induction n generalizing m with
  | zero => exact fun _ _ h => absurd h.2.left (Nat.not_lt_zero _)
  | succ n ih =>
    cases m with
    | zero => exact fun _ _ h => absurd h.2.left' (Nat.not_lt_zero _)
    | succ m =>
      rw [statements_succ, statements_succ]
      refine (mirrors_reading Lexer.mirrors_next_lower).bind fun token token' htoken => ?_
      by_cases heof : token.kind = .eof
      · have heof' : token'.kind = .eof := htoken.1 ▸ heof
        rw [if_pos heof, if_pos heof, if_pos heof']
        exact .pure rfl fun _ _ h => ⟨h.1, trivial⟩
      · have heof' : token'.kind ≠ .eof := htoken.1 ▸ heof
        rw [if_neg heof, if_neg heof, if_neg heof']
        exact (mirrors_statement nested htoken).bindEq fun _ => ih

/-! ## Whole texts -/

theorem abreast_start {text text' : List Char} (h : SameText text text') :
    Abreast (text.length + 1) (text'.length + 1) (.start text) (.start text') :=
  have hstart : (Cursor.start text).Abreast (.start text') := ⟨h, rfl, ⟨0, rfl, rfl⟩, rfl⟩
  ⟨hstart, hstart, Nat.lt_succ_self _, Nat.lt_succ_self _⟩

/-- Texts that are the same but for how their lines end are loaded alike. -/
theorem SameText.loadText_eq {text text' : List Char} (h : SameText text text') (nested : Nested)
    (path : String) (scope : ScopeId) (g : Graph) :
    loadText nested path text scope g = loadText nested path text' scope g := by
  have hs : Alike (Abreast (text.length + 1) (text'.length + 1)) ⟨g, .start text⟩
      ⟨g, .start text'⟩ := ⟨rfl, abreast_start h⟩
  unfold loadText
  obtain ⟨_, _, s, s', hrun, hrun', -, hgraph, -⟩ | ⟨e, s, s', hrun, hrun', hgraph, -⟩ :=
    mirrors_statements nested ⟨path, scope⟩ hs
  · simp only [hrun, hrun', hgraph]
  · simp only [hrun, hrun', hgraph]

/-- The text with other characters for the end of each line. -/
def withLineEnds (lineEnd text : List Char) : List Char :=
  text.flatMap fun c => if c = '\n' then lineEnd else [c]

theorem withLineEnds_cons (lineEnd : List Char) (c : Char) (text : List Char) :
    withLineEnds lineEnd (c :: text) =
      (if c = '\n' then lineEnd else [c]) ++ withLineEnds lineEnd text :=
  List.flatMap_cons

theorem head?_withLineEnds {lineEnd : List Char} (hfront : lineEnd.head? = some '\r')
    (text : List Char) : (withLineEnds lineEnd text).head? ≠ some '\n' := by
  cases text with
  | nil => nofun
  | cons c text =>
    rw [withLineEnds_cons]
    by_cases hc : c = '\n'
    · simp [hc, hfront]
    · simp [hc]

/-- A text stays the same with other line ends, if these are read as such wherever no line feed
follows. -/
theorem sameText_withLineEnds {lineEnd : List Char} (hend : ∀ rest : List Char,
      rest.head? ≠ some '\n' → SameEnd (lineEnd ++ rest) (lineEnd ++ rest) rest rest)
    (hfront : lineEnd.head? = some '\r') {text : List Char} (htext : '\r' ∉ text) :
    SameText text (withLineEnds lineEnd text) := by
  induction text with
  | nil => exact .nil
  | cons c text ih =>
    obtain ⟨hreturn, htext⟩ : '\r' ≠ c ∧ '\r' ∉ text := by simpa using htext
    rw [withLineEnds_cons]
    by_cases hc : c = '\n'
    · rw [if_pos hc, hc]
      exact .lineEnd (.lf text text) (hend _ (head?_withLineEnds hfront text)) (ih htext)
    · rw [if_neg hc]
      exact .char (by simp [isLineEnd, hc, hreturn.symm]) (ih htext)

/-- A manifest whose lines end with a line feed is loaded alike if they all end with a carriage
return and a line feed, or all with a carriage return alone: the graph is the same, and so are a
fault and its place. Only the manifest itself is written differently, not the files that it
includes. -/
theorem loadText_withLineEnds (nested : Nested) (path : String) (scope : ScopeId) (g : Graph)
    {text : List Char} (htext : '\r' ∉ text) :
    loadText nested path (withLineEnds ['\r', '\n'] text) scope g =
        loadText nested path text scope g ∧
      loadText nested path (withLineEnds ['\r'] text) scope g =
        loadText nested path text scope g := by
  have hcrlf : SameText text (withLineEnds ['\r', '\n'] text) :=
    sameText_withLineEnds (fun rest _ => .crlf rest rest) rfl htext
  have hcr : SameText text (withLineEnds ['\r'] text) :=
    sameText_withLineEnds (fun _ hrest => .cr hrest hrest) rfl htext
  exact ⟨(hcrlf.loadText_eq nested path scope g).symm, (hcr.loadText_eq nested path scope g).symm⟩

private theorem exists_accepted {result : EStateM.Result Error Graph Unit} (P : Graph → Prop)
    [DecidablePred P]
    (h : (match result with | .ok _ g => decide (P g) | .error _ _ => false) = true) :
    ∃ g, result = .ok () g ∧ P g := by
  cases result with
  | ok _ g => exact ⟨g, rfl, of_decide_eq_true h⟩
  | error _ _ => cases h

private theorem exists_rejected {result : EStateM.Result Error Graph Unit} {e : Error}
    (h : (match result with | .ok _ _ => false | .error d _ => d == e) = true) :
    ∃ g, result = .error e g := by
  cases result with
  | ok _ _ => cases h
  | error d g => exact ⟨g, by rw [eq_of_beq h]⟩

/-- A rule whose command goes on in a third line is accepted either way, and a name that is missing
is found missing at the same place. -/
theorem loadText_withLineEnds_rule :
    (∃ g, loadText standalone "build.ninja"
        (withLineEnds ['\r', '\n'] "rule cc\n  command = cc $\n    $in\n".toList) Scopes.root
          .initial = .ok () g ∧ g.rules.size = 1) ∧
    ∃ g, loadText standalone "build.ninja"
        (withLineEnds ['\r'] "# note\n\nrule : cc\n".toList) Scopes.root .initial =
      .error (.malformed "build.ninja" ⟨3, 6⟩ .expectedIdent) g := by
  obtain ⟨g, haccepted, hrules⟩ : ∃ g, loadText standalone "build.ninja"
      "rule cc\n  command = cc $\n    $in\n".toList Scopes.root .initial = .ok () g ∧
        g.rules.size = 1 := exists_accepted (fun g => g.rules.size = 1) (by cbv)
  obtain ⟨g', hrejected⟩ : ∃ g, loadText standalone "build.ninja"
      "# note\n\nrule : cc\n".toList Scopes.root .initial =
        .error (.malformed "build.ninja" ⟨3, 6⟩ .expectedIdent) g := exists_rejected (by cbv)
  exact ⟨⟨g, (loadText_withLineEnds _ _ _ _ (by decide)).1.trans haccepted, hrules⟩,
    g', (loadText_withLineEnds _ _ _ _ (by decide)).2.trans hrejected⟩

end Manifest

end Rebuild
