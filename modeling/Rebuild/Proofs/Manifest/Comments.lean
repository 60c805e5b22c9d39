import Mathlib
import Rebuild.Proofs.Manifest.Statements

/-!
# Comments between lines

A comment on a line of its own can be added at every line start of a manifest, and the graph that
the manifest yields stays the same, with one exception. A binding of the file is read by taking back
the token for its name, and that also takes back the comment in front of it; in front of such a
binding a comment is therefore an error.
-/

namespace Rebuild.Manifest

open Lexer (On)
open Sequence (bind_eq_ok bind_of_ok bind_of_error)

variable {R : List Char → List Char → Prop} {text : List Char} {n m : Nat} {nested : Nested}
  {file file' : SourceFile}

/-- Carries out the statement that a token begins. -/
def statement (nested : Nested) (file : SourceFile) (token : Token) : Load Unit :=
  match token.kind with
  | .eof | .newline => pure ()
  | .build => buildStatement file token.location
  | .rule => ruleStatement file
  | .pool => poolStatement file
  | .default => defaultStatement file
  | .include => includeStatement nested file false
  | .subninja => includeStatement nested file true
  | .ident => bindingStatement file
  | .indent => faultAt file token.location .unexpectedIndent
  | .colon | .equals | .pipe | .pipe2 | .pipeAt =>
    faultAt file token.location (.unexpectedToken .statement token.kind)

theorem statements_succ (nested : Nested) (file : SourceFile) (n : Nat) :
    statements nested file (n + 1) = reading file Lexer.next >>= fun token =>
      if token.kind = .eof then pure ()
      else statement nested file token >>= fun _ => statements nested file n := by
  rw [statements]
  refine congrArg _ (funext fun token => ?_)
  unfold statement
  cases hkind : token.kind
  all_goals rfl

theorem statement_of_ident {token : Token} (h : token.kind = .ident) :
    statement nested file token = bindingStatement file := by
  rw [statement, h]

/-! ## Statements other than bindings -/

theorem echoes_statement (hR : Steady R) (hscope : file.scope = file'.scope) {token token' : Token}
    (hkind : token.kind = token'.kind) (hident : token.kind ≠ .ident) (heof : token.kind ≠ .eof) :
    Echoes Loader.left (Alike (On (Cursor.Onward R token.kind))) (statement nested file token)
      (statement nested file' token') Eq fun _ => Alike (On (Cursor.EndsLine R)) := by
  obtain ⟨path, scope⟩ := file
  obtain ⟨path', _⟩ := file'
  cases hscope
  unfold statement
  rw [← hkind]
  generalize token.kind = kind at hident heof
  match kind with
  | .ident => exact absurd rfl hident
  | .eof => exact absurd rfl heof
  | .newline => exact .pure rfl fun _ _ h => ⟨h.1, .inl h.2⟩
  | .build => exact inStep_buildStatement hR ..
  | .rule => exact inStep_ruleStatement hR
  | .pool => exact inStep_poolStatement hR
  | .default => exact inStep_defaultStatement
  | .include => exact inStep_includeStatement nested false
  | .subninja => exact inStep_includeStatement nested true
  | .indent | .colon | .equals | .pipe | .pipe2 | .pipeAt => exact echoes_faultAt

/-! ## Bindings -/

theorem escapesIn_of_bindsAt (h : BindsAt text) : escapesIn text = true := by
  obtain ⟨ch, u, hu, -, hspace, hcomment, -⟩ := front_of_word h.1
  have hno : (text.dropWhile isSpace).head? ≠ some '#' := by simp [hu, hspace, hcomment]
  rw [← Bool.not_eq_false, escapesIn_of_no_comment hno, h.2]
  simp

/-- Reads a binding and adds it to the scope of the file. -/
def bindNext (file : SourceFile) : Load Unit := do
  let (name, value) ← reading file binding
  changeScopes (·.bind file.scope name value)

/-- The name of a binding is read again from where its token began. -/
theorem bindingStatement_eq (g : Graph) (c d : Cursor) :
    bindingStatement file ⟨g, ⟨d, c⟩⟩ = bindNext file ⟨g, ⟨c, c⟩⟩ :=
  rfl

theorem echoes_bindNext (hscope : file.scope = file'.scope) (n : Nat) : Echoes Loader.left
    (fun s s' => Alike (On fun c d => Cursor.SharesLine true R c.inLine d.inLine) s s' ∧
      s.left < n + 1) (bindNext file) (bindNext file') Eq
      fun _ s s' => Alike (On (Cursor.EndsLine R)) s s' ∧ s.left < n := by
  unfold bindNext
  rw [hscope]
  refine (echoes_reading_binding n).bind fun result _ hresult => ?_
  subst hresult
  exact (echoes_change _).within n

/-- Where a binding is read from the start of a line, the line binds a variable. -/
theorem bindsAt_of_bindNext {g : Graph} {c c' : Cursor} {token : Token} {t : Loader}
    (hstart : c.atLineStart = true) (htoken : c.nextToken = .ok token c')
    (hkind : token.kind = .ident) (hrun : bindNext file ⟨g, ⟨c, c⟩⟩ = .ok () t) :
    BindsAt c.rest := by
  obtain ⟨result, u, hbinding, -⟩ := bind_eq_ok.mp hrun
  obtain ⟨name, l, hname, -⟩ := bind_eq_ok.mp (reading_eq_ok hbinding).1
  exact Cursor.bindsAt_of_ident hstart htoken hkind (Lexer.withCursor_eq_ok hname)

/-- No binding can be read where a comment begins. -/
theorem bindNext_of_commentLine {indent : Nat} {note rest : List Char} {s : Loader}
    (h : s.lexer.cursor.rest = commentLine indent note ++ rest) : ∃ place t,
      bindNext file s = .error (.malformed file.path place .expectedIdent) t := by
  have hspaces : (s.lexer.cursor.inLine.skipWhile isSpace).rest = '#' :: (note ++ '\n' :: rest) :=
    Cursor.rest_skipWhile_commentLine (c := s.lexer.cursor.inLine) h
  have hname : (s.lexer.cursor.inLine.skipWhile isSpace).rest.takeWhile isIdentChar = [] := by
    rw [hspaces]
    rfl
  obtain ⟨place, l, hident⟩ : ∃ place l,
      Lexer.ident s.lexer = .error ⟨place, .expectedIdent⟩ l := by
    rw [Lexer.ident, Lexer.withCursor, Cursor.ident, hname]
    exact ⟨_, _, rfl⟩
  have hbinding : binding s.lexer = .error ⟨place, .expectedIdent⟩ l := bind_of_error _ hident
  have hreading : reading file binding s = .error (.malformed file.path place .expectedIdent)
      { s with lexer := l } := by
    rw [reading, hbinding]
    rfl
  exact ⟨place, _, bind_of_error _ hreading⟩

/-- In a line that is shared the statement that binds a variable goes alike. -/
theorem bindingStatement_of_sameLine (hscope : file.scope = file'.scope) {g g' : Graph}
    {c c' d : Cursor} (d' : Cursor) {token : Token} {t : Loader} (hg : g = g')
    (hstart : c.atLineStart = true) (hsame : SameLine (escapesIn c.rest) R false c.rest d.rest)
    (hleft : c.rest.length < n + 1) (htoken : c.nextToken = .ok token c')
    (hkind : token.kind = .ident) (hrun : bindingStatement file ⟨g, ⟨c', c⟩⟩ = .ok () t) :
    ∃ t', bindingStatement file' ⟨g', ⟨d', d⟩⟩ = .ok () t' ∧
      Alike (On (Cursor.EndsLine R)) t t' ∧ t.left < n := by
  rw [bindingStatement_eq] at hrun ⊢
  rw [escapesIn_of_bindsAt (bindsAt_of_bindNext hstart htoken hkind hrun)] at hsame
  have hs : Alike (On fun c d => Cursor.SharesLine true R c.inLine d.inLine)
      ⟨g, ⟨c, c⟩⟩ ⟨g', ⟨d, d⟩⟩ := ⟨hg, rfl, rfl, hsame⟩
  obtain ⟨-, _, t', hrun', -, ht⟩ := echoes_bindNext hscope n ⟨hs, hleft⟩ hrun
  exact ⟨t', hrun', ht⟩

/-- The statement that binds a variable goes alike, unless a comment that only the second text has
stands in front of it. -/
theorem bindingStatement_cases (hR : LinesUp R) {g g' : Graph} {c c' d : Cursor} (d' : Cursor)
    {token : Token} {t : Loader} (hg : g = g') (hcd : Cursor.EndsLine R c d)
    (hleft : c.rest.length < n + 1) (htoken : c.nextToken = .ok token c')
    (hkind : token.kind = .ident) (hrun : bindingStatement file ⟨g, ⟨c', c⟩⟩ = .ok () t) :
    (∃ t', bindingStatement file ⟨g', ⟨d', d⟩⟩ = .ok () t' ∧
      Alike (On (Cursor.EndsLine R)) t t' ∧ t.left < n) ∨
    ∃ text indent note, R text (commentLine indent note ++ text) ∧ BindsAt text ∧ ∃ place t',
      bindingStatement file ⟨g', ⟨d', d⟩⟩ =
        .error (.malformed file.path place .expectedIdent) t' := by
  obtain hstart | hend := hcd
  · obtain hsame | ⟨indent, note, -, hrest, -⟩ := hR.line hstart.rest
    · exact .inl (bindingStatement_of_sameLine rfl d' hg hstart.start hsame hleft htoken hkind hrun)
    · rw [bindingStatement_eq] at hrun ⊢
      exact .inr ⟨_, indent, note, hrest ▸ hstart.rest,
        bindsAt_of_bindNext hstart.start htoken hkind hrun, bindNext_of_commentLine hrest⟩
  · rw [Cursor.nextToken_of_nil hend.nil] at htoken
    cases htoken
    cases hkind

/-! ## Whole texts -/

/-- The same statements are carried out up to the end of both texts, or the second one has a comment
more in front of a binding, where it fails. -/
theorem statements_cases (hR : LinesUp R) (hn : n ≤ m) {s s' t : Loader}
    (hs : Alike (On (Cursor.EndsLine R)) s s') (hleft : s.left < n)
    (hrun : statements nested file n s = .ok () t) :
    (R [] [] ∧ ∃ t', statements nested file m s' = .ok () t' ∧ t.graph = t'.graph) ∨
    ∃ text indent note, R text (commentLine indent note ++ text) ∧ BindsAt text ∧ ∃ place t',
      statements nested file m s' = .error (.malformed file.path place .expectedIdent) t' := by
  induction n generalizing m s s' with
  | zero => exact absurd hleft (Nat.not_lt_zero _)
  | succ n ih =>
    obtain ⟨m, rfl⟩ : ∃ k, m = k + 1 := ⟨m - 1, by omega⟩
    rw [statements_succ] at hrun
    obtain ⟨token, s₁, hnext, hrest⟩ := bind_eq_ok.mp hrun
    obtain ⟨hlexer, hgraph⟩ := reading_eq_ok hnext
    obtain ⟨hc, hsaved⟩ := Lexer.next_eq_ok hlexer
    obtain ⟨token', d', hd, hkind, honward⟩ := Cursor.EndsLine.nextToken hR hs.2 hc
    have hnext' : reading file Lexer.next s' = .ok token' ⟨s'.graph, ⟨d', s'.lexer.cursor⟩⟩ :=
      reading_of_ok (Lexer.next_of_ok hd)
    rw [statements_succ, bind_of_ok _ hnext', ← hkind]
    by_cases heof : token.kind = .eof
    · rw [if_pos heof] at hrest ⊢
      cases hrest
      rw [heof] at honward
      exact .inl ⟨honward.rest, _, rfl, hgraph.trans hs.1⟩
    rw [if_neg heof] at hrest ⊢
    obtain ⟨_, s₂, hstatement, hrest⟩ := bind_eq_ok.mp hrest
    have hlt : s₁.left < n := by
      have := (Cursor.forward_nextToken hc).2 heof
      exact Nat.lt_of_lt_of_le this (Nat.le_of_lt_succ hleft)
    -- Where the statements have gone alike, so do those after them.
    have hmore {s₂' : Loader}
        (hstatement' : statement nested file token' ⟨s'.graph, ⟨d', s'.lexer.cursor⟩⟩ = .ok () s₂')
        (hs₂ : Alike (On (Cursor.EndsLine R)) s₂ s₂') (hleft₂ : s₂.left < n) := by
      have := ih (m := m) (by omega) hs₂ hleft₂ hrest
      rwa [← bind_of_ok (fun _ => statements nested file m) hstatement'] at this
    by_cases hident : token.kind = .ident
    · rw [statement_of_ident hident] at hstatement
      rw [statement_of_ident (hkind ▸ hident)] at hmore ⊢
      obtain ⟨g, c', saved⟩ := s₁
      cases hsaved
      have hcases :=
        bindingStatement_cases hR d' (hgraph.trans hs.1) hs.2 hleft hc hident hstatement
      obtain ⟨s₂', hstatement', hs₂, hleft₂⟩ |
        ⟨text, indent, note, htext, hbinds, place, t', herror⟩ := hcases
      · exact hmore hstatement' hs₂ hleft₂
      · exact .inr ⟨text, indent, note, htext, hbinds, place, t', bind_of_error _ herror⟩
    · have hs₁ : Alike (On (Cursor.Onward R token.kind)) s₁ ⟨s'.graph, ⟨d', s'.lexer.cursor⟩⟩ :=
        ⟨hgraph.trans hs.1, honward⟩
      obtain ⟨hle, _, s₂', hstatement', -, hs₂⟩ :=
        echoes_statement hR.steady rfl hkind hident heof hs₁ hstatement
      exact hmore hstatement' hs₂ (Nat.lt_of_le_of_lt hle hlt)

/-- A text with a comment added in front of a binding has it there. -/
theorem Commented.eq_of_bindsAt {indent indent' : Nat} {note note' rest : List Char}
    (h : Commented indent note rest text (commentLine indent' note' ++ text))
    (hbinds : BindsAt text) : text = rest := by
  obtain ⟨before, -, rfl, hbefore⟩ | ⟨heq, -⟩ := h
  · cases before with
    | nil => rfl
    | cons ch before =>
      obtain ⟨c, u, hu, hc⟩ := front_of_commentLine indent' note' (ch :: before ++ rest)
      obtain ⟨c', u', hu', -, hspace, hcomment, -⟩ := front_of_word hbinds.1
      cases hu'
      rw [hu] at hbefore
      cases hbefore
      obtain rfl | rfl := hc
      · cases hspace
      · exact absurd rfl hcomment
  · have := congrArg List.length heq
    simp [commentLine] at this
    omega

/-- A comment on a line of its own may stand wherever a line of a manifest begins, except in front
of a binding of the file: there it makes reading the manifest fail, since the name of the binding is
looked for where the comment begins. -/
theorem loadText_commentLine (nested : Nested) (path : String) (scope : ScopeId) {g g' : Graph}
    (indent : Nat) {note : List Char} (hnote : ∀ c ∈ note, isLineEnd c = false)
    {before rest : List Char} (hstart : LineStart rest (before ++ rest))
    (hload : loadText nested path (before ++ rest) scope g = .ok () g') :
    (¬ BindsAt rest →
      loadText nested path (before ++ commentLine indent note ++ rest) scope g = .ok () g') ∧
    (BindsAt rest → ∃ place g'',
      loadText nested path (before ++ commentLine indent note ++ rest) scope g =
        .error (.malformed path place .expectedIdent) g'') := by
  have hlines := Commented.linesUp indent hnote rest
  have hs : Alike (On (Cursor.EndsLine (Commented indent note rest)))
      ⟨g, .start (before ++ rest)⟩ ⟨g, .start (before ++ commentLine indent note ++ rest)⟩ :=
    ⟨rfl, .inl ⟨rfl, rfl, .inl ⟨before, hstart, rfl, List.append_assoc ..⟩⟩⟩
  have hlength : (before ++ rest).length + 1 ≤
      (before ++ commentLine indent note ++ rest).length + 1 := by
    simp only [List.length_append]
    omega
  unfold loadText at hload
  split at hload
  case h_2 => cases hload
  case h_1 t hrun =>
    cases hload
    obtain ⟨hend, t', hrun', hgraph⟩ | ⟨text, indent', note', htext, hbinds, place, t', herror⟩ :=
      statements_cases hlines hlength hs (Nat.lt_succ_self _) hrun
    · refine ⟨fun _ => ?_, fun hbinds => absurd hbinds hend.not_bindsAt⟩
      rw [loadText, hrun', hgraph]
    · cases htext.eq_of_bindsAt hbinds
      refine ⟨fun hno => absurd hbinds hno, fun _ => ⟨place, t'.graph, ?_⟩⟩
      rw [loadText, herror]

theorem exists_graph {result : EStateM.Result Error Graph Unit}
    (h : (match result with | .ok _ _ => true | .error _ _ => false) = true) :
    ∃ g, result = .ok () g := by
  cases result with
  | ok _ g => exact ⟨g, rfl⟩
  | error _ _ => cases h

/-- No other file can be read. -/
def standalone : Nested := fun path _ => throw (.nestedTooDeeply path)

theorem loadText_commentLine_rule :
    (∃ g, loadText standalone "build.ninja" ("rule cc\n".toList ++
        "  command = cc $in\nflags = -O2\n".toList) Scopes.root .initial = .ok () g ∧
      loadText standalone "build.ninja" ("rule cc\n".toList ++ commentLine 4 " note $".toList ++
        "  command = cc $in\nflags = -O2\n".toList) Scopes.root .initial = .ok () g) ∧
    ∃ place g, loadText standalone "build.ninja" ("rule cc\n  command = cc $in\n".toList ++
      commentLine 0 " note".toList ++ "flags = -O2\n".toList) Scopes.root .initial =
        .error (.malformed "build.ninja" place .expectedIdent) g := by
  have hrule : LineStart "  command = cc $in\nflags = -O2\n".toList
      ("rule cc\n".toList ++ "  command = cc $in\nflags = -O2\n".toList) :=
    .later (by decide) .here
  have hcommand : LineStart "flags = -O2\n".toList "  command = cc $in\nflags = -O2\n".toList :=
    .later (by decide) .here
  have hflags : LineStart "flags = -O2\n".toList
      ("rule cc\n  command = cc $in\n".toList ++ "flags = -O2\n".toList) :=
    .later (by decide) hcommand
  obtain ⟨g, hg⟩ : ∃ g, loadText standalone "build.ninja" ("rule cc\n".toList ++
      "  command = cc $in\nflags = -O2\n".toList) Scopes.root .initial = .ok () g :=
    exists_graph (by cbv)
  obtain ⟨g', hg'⟩ : ∃ g, loadText standalone "build.ninja"
      ("rule cc\n  command = cc $in\n".toList ++ "flags = -O2\n".toList) Scopes.root .initial =
        .ok () g :=
    exists_graph (by cbv)
  exact ⟨⟨g, hg, (loadText_commentLine _ _ _ 4 (by simp [isLineEnd]) hrule hg).1 (by decide)⟩,
    (loadText_commentLine _ _ _ 0 (by simp [isLineEnd]) hflags hg').2 (by decide)⟩

end Rebuild.Manifest
