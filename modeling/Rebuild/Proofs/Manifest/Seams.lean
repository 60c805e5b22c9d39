import Rebuild.Proofs.Manifest.Declaring
import Rebuild.Proofs.Manifest.Nesting

/-!
# Seams between lines

A text can be cut where a line begins. As long as no indented line comes after the cut, what comes
before is carried out as if the text ended there, and what comes after as if it began there. The
cursors that read two texts with the same lines in front share these lines, up to the seam after
which the texts may differ.
-/

namespace Rebuild.Manifest

open Lexer (On)
open Sequence (bind_eq_ok bind_of_ok)

variable {R : List Char → List Char → Prop} {text text' before more rest rest' : List Char}
  {nested : Nested} {file file' : SourceFile} {path path' : String} {scope : ScopeId}
  {g g' g₁ : Graph} {n : Nat}

/-! ## Whole lines -/

/-- Every line of the text has an end, and none of them is a comment. -/
inductive WholeLines : List Char → Prop where
  | nil : WholeLines []
  | line {text more : List Char} (hcomment : (text.dropWhile isSpace).head? ≠ some '#')
    (hline : lineRest? (escapesIn text) false text = some more) (hmore : WholeLines more) :
    WholeLines text

/-- A text does not go on with the line end that stands in front of it. -/
def Parted (before rest : List Char) : Prop :=
  before.getLast? = some '\r' → rest.head? ≠ some '\n'

theorem Parted.nil (before : List Char) : Parted before [] := fun _ => nofun

theorem Parted.of_head (h : rest.head? ≠ some '\n') (before : List Char) : Parted before rest :=
  fun _ => h

/-- The first text ends with `rest`, the second one with `rest'`, and before that they are the same
whole lines. -/
def Seam (rest rest' text text' : List Char) : Prop :=
  ∃ before, WholeLines before ∧ Parted before rest ∧ Parted before rest' ∧
    text = before ++ rest ∧ text' = before ++ rest'

theorem SameLine.escapesIn_eq {escapes : Bool} (h : SameLine escapes R false text text') :
    escapesIn text = escapesIn text' := by
  rw [escapesIn, escapesIn, (h.takeWhile_dropWhile (plain_isIdentChar escapes)).1,
    (h.takeWhile_dropWhile (plain_isSpace escapes)).2.head?_eq]

/-- Before the seam the texts share a line. -/
theorem Seam.cases (h : Seam rest rest' text text') : text = rest ∧ text' = rest' ∨
    SameLine (escapesIn text) (Seam rest rest') false text text' ∧
      (text.dropWhile isSpace).head? ≠ some '#' := by
  obtain ⟨before, hbefore, hrest, hrest', rfl, rfl⟩ := h
  cases hbefore with
  | nil => exact .inl ⟨rfl, rfl⟩
  | @line _ more hcomment hline hmore =>
    obtain ⟨line, hne, rfl, hlast, hsame⟩ := exists_line_append hline
    have hend {tail : List Char} (h : Parted (line ++ more) tail) : Parted line (more ++ tail) := by
      intro hreturn
      cases more with
      | nil => exact h (by rwa [List.append_nil])
      | cons c more => exact hlast hreturn
    have hmoreEnd {tail : List Char} (h : Parted (line ++ more) tail) : Parted more tail :=
      fun hreturn => h (by rw [List.getLast?_append, hreturn, Option.some_or])
    have hfront : SameLine (escapesIn (line ++ more)) (fun _ _ => True) false (line ++ more)
        (line ++ (more ++ rest)) :=
      hsame _ _ _ trivial fun hreturn => ⟨hlast hreturn, hend hrest hreturn⟩
    have hseam : Seam rest rest' (more ++ rest) (more ++ rest') :=
      ⟨more, hmore, hmoreEnd hrest, hmoreEnd hrest', rfl, rfl⟩
    rw [List.append_assoc, List.append_assoc, ← hfront.escapesIn_eq]
    refine .inr ⟨hsame _ _ _ hseam fun hreturn => ⟨hend hrest hreturn, hend hrest' hreturn⟩, ?_⟩
    rwa [← (hfront.takeWhile_dropWhile (plain_isSpace _)).2.head?_eq]

/-! ## Texts that are not indented -/

/-- A token can be read in front of the text, and it is no indentation. -/
def Unindented (text : List Char) : Prop :=
  ∃ token c, (Cursor.start text).nextToken = .ok token c ∧ token.kind ≠ .indent

theorem unindented_nil : Unindented [] :=
  ⟨_, _, Cursor.nextToken_of_nil rfl, nofun⟩

/-- Where the text comes next, no indentation is seen. -/
theorem Unindented.peek (h : Unindented text) {l : Lexer} (hl : l.Between text) :
    Lexer.peek .indent l = .ok none l := by
  obtain ⟨token, c, hnext, hkind⟩ := h
  obtain ⟨token', d, hnext', hkind', -⟩ :=
    ((Lexer.between_start text).endsLine hl).nextToken linesUp_eq hnext
  rw [Lexer.peek, Lexer.next_of_ok hnext']
  exact if_neg (hkind' ▸ hkind)

/-! ## Cursors at a seam -/

/-- Between lines cursors that read two texts with a seam stand at the seam, or they share a line
that is no comment. -/
theorem endsLine_seam_cases {c d : Cursor} (h : Cursor.EndsLine (Seam rest rest') c d) :
    c.Between rest ∧ d.Between rest' ∨
    c.atLineStart = true ∧ d.atLineStart = true ∧
      SameLine (escapesIn c.rest) (Seam rest rest') false c.rest d.rest ∧ c.NoComment := by
  obtain ⟨hstart, hstart', hseam⟩ | ⟨hnil, hnil', hseam⟩ := h
  · obtain ⟨hc, hd⟩ | ⟨hsame, hcomment⟩ := hseam.cases
    · exact .inl ⟨⟨hc, .inl hstart⟩, ⟨hd, .inl hstart'⟩⟩
    · exact .inr ⟨hstart, hstart', hsame, hcomment⟩
  · obtain ⟨before, -, -, -, hrest, hrest'⟩ := hseam
    obtain ⟨-, rfl⟩ := List.append_eq_nil_iff.mp hrest.symm
    obtain ⟨-, rfl⟩ := List.append_eq_nil_iff.mp hrest'.symm
    exact .inl ⟨⟨hnil, .inr rfl⟩, ⟨hnil', .inr rfl⟩⟩

/-- The end of a block is seen alike, at the seam and before it. -/
theorem steady_seam (h : Unindented rest) (h' : Unindented rest') : Steady (Seam rest rest') := by
  intro l m hends token l' hread
  obtain ⟨hl, hm⟩ | hline := endsLine_seam_cases hends
  · cases (h.peek hl).symm.trans hread
    exact ⟨Nat.le_refl _, none, m, h'.peek hm, rfl, hends⟩
  · have hnext : Echoes Lexer.left (On fun c d => Cursor.EndsLine (Seam rest rest') c d ∧
        c.atLineStart = true ∧ d.atLineStart = true ∧
          SameLine (escapesIn c.rest) (Seam rest rest') false c.rest d.rest ∧ c.NoComment)
        Lexer.next Lexer.next (fun token token' => token.kind = token'.kind)
          fun token => On (Cursor.Onward (Seam rest rest') token.kind) :=
      Lexer.echoes_next fun c d ⟨_, hstart, hstart', hsame, hcomment⟩ _ _ hc =>
        Cursor.nextToken_of_sameLine hstart hstart' hsame (fun h => absurd hcomment h) hc
    obtain ⟨hle, token', m', hread', hsome, hafter⟩ := Lexer.echoes_peek hnext ⟨hends, hline⟩ hread
    refine ⟨hle, token', m', hread', hsome, ?_⟩
    cases token with
    | none => exact hafter.1
    | some token => exact hafter

/-! ## Statements at a seam -/

/-- The graph that statements lead to. -/
def graphOf : EStateM.Result Error Loader Unit → EStateM.Result Error Graph Unit
  | .ok _ s => .ok () s.graph
  | .error e s => .error e s.graph

theorem graphOf_eq_ok {result : EStateM.Result Error Loader Unit} :
    graphOf result = .ok () g ↔ ∃ s, result = .ok () s ∧ s.graph = g := by
  cases result with
  | ok _ s => simp [graphOf]
  | error e s => simp [graphOf]

theorem loadText_eq_graphOf (hn : text.length < n) (nested : Nested) (path : String)
    (scope : ScopeId) (g : Graph) : loadText nested path text scope g =
      graphOf (statements nested ⟨path, scope⟩ n ⟨g, .start text⟩) := by
  rw [loadText_eq_of_lt hn]
  rfl

theorem statements_of_statement {s s₁ s₂ : Loader} {token : Token}
    (hnext : reading file Lexer.next s = .ok token s₁) (heof : token.kind ≠ .eof)
    (hstatement : statement nested file token s₁ = .ok () s₂) (n : Nat) :
    statements nested file (n + 1) s = statements nested file n s₂ := by
  rw [statements_succ, bind_of_ok _ hnext, if_neg heof, bind_of_ok _ hstatement]

theorem graphOf_statements_of_eof {s s₁ : Loader} {token : Token}
    (hnext : reading file Lexer.next s = .ok token s₁) (heof : token.kind = .eof) (n : Nat) :
    graphOf (statements nested file (n + 1) s) = .ok () s₁.graph := by
  rw [statements_succ, bind_of_ok _ hnext, if_pos heof]
  rfl

/-- Nothing more is done at the end of the text. -/
theorem graphOf_statements_of_nil {s : Loader} (h : s.lexer.cursor.rest = []) (n : Nat) :
    graphOf (statements nested file n s) = .ok () s.graph := by
  cases n with
  | zero => rfl
  | succ n =>
    have hnext := Lexer.next_of_ok (Cursor.nextToken_of_nil h)
    exact graphOf_statements_of_eof (reading_of_ok hnext) rfl n

/-- In a line that is shared a statement is carried out alike. -/
theorem statement_of_sameLine (hR : Steady R) (hscope : file.scope = file'.scope)
    {s s₁ s₂ s' : Loader} {token token' : Token} {d' : Cursor} (hgraph : s.graph = s'.graph)
    (hstart : s.lexer.cursor.atLineStart = true)
    (hsame : SameLine (escapesIn s.lexer.cursor.rest) R false s.lexer.cursor.rest
      s'.lexer.cursor.rest)
    (hleft : s.left < n + 1) (hnext : reading file Lexer.next s = .ok token s₁)
    (heof : token.kind ≠ .eof) (hkind : token.kind = token'.kind)
    (honward : Cursor.Onward R token.kind s₁.lexer.cursor d')
    (hstatement : statement nested file token s₁ = .ok () s₂) :
    ∃ s₂', statement nested file' token' ⟨s'.graph, ⟨d', s'.lexer.cursor⟩⟩ = .ok () s₂' ∧
      Alike (On (Cursor.EndsLine R)) s₂ s₂' ∧ s₂.left < n := by
  obtain ⟨hlexer, hgraph₁⟩ := reading_eq_ok hnext
  obtain ⟨hc, hsaved⟩ := Lexer.next_eq_ok hlexer
  by_cases hident : token.kind = .ident
  · rw [statement_of_ident hident] at hstatement
    rw [statement_of_ident (hkind ▸ hident)]
    obtain ⟨g, c', saved⟩ := s₁
    cases hsaved
    exact bindingStatement_of_sameLine hscope d' (hgraph₁.trans hgraph) hstart hsame hleft hc hident
      hstatement
  · have hs₁ : Alike (On (Cursor.Onward R token.kind)) s₁ ⟨s'.graph, ⟨d', s'.lexer.cursor⟩⟩ :=
      ⟨hgraph₁.trans hgraph, honward⟩
    obtain ⟨hle, _, s₂', hstatement', -, hs₂⟩ :=
      echoes_statement hR hscope hkind hident heof hs₁ hstatement
    have hlt := (Cursor.forward_nextToken hc).2 heof
    exact ⟨s₂', hstatement', hs₂,
      Nat.lt_of_le_of_lt hle (Nat.lt_of_lt_of_le hlt (Nat.le_of_lt_succ hleft))⟩

/-- Statements are carried out alike up to the seam. -/
theorem exists_seam (hscope : file.scope = file'.scope) (h : Unindented rest)
    (h' : Unindented rest') {s s' t : Loader}
    (hs : Alike (On (Cursor.EndsLine (Seam rest rest'))) s s') (hleft : s.left < n)
    (hrun : statements nested file n s = .ok () t) :
    ∃ j u u', u.graph = u'.graph ∧ u.lexer.Between rest ∧ u'.lexer.Between rest' ∧ ∀ k,
      graphOf (statements nested file (j + k) s) = graphOf (statements nested file k u) ∧
      graphOf (statements nested file' (j + k) s') = graphOf (statements nested file' k u') := by
  induction n generalizing s s' with
  | zero => exact absurd hleft (Nat.not_lt_zero _)
  | succ n ih =>
    obtain ⟨hu, hu'⟩ | ⟨hstart, hstart', hsame, hcomment⟩ := endsLine_seam_cases hs.2
    · exact ⟨0, s, s', hs.1, hu, hu', fun k => by rw [Nat.zero_add]; exact ⟨rfl, rfl⟩⟩
    rw [statements_succ] at hrun
    obtain ⟨token, s₁, hnext, hrest⟩ := bind_eq_ok.mp hrun
    obtain ⟨hlexer, hgraph⟩ := reading_eq_ok hnext
    obtain ⟨token', d', hd, hkind, honward⟩ := Cursor.nextToken_of_sameLine hstart hstart' hsame
      (fun h => absurd hcomment h) (Lexer.next_eq_ok hlexer).1
    have hnext' : reading file' Lexer.next s' = .ok token' ⟨s'.graph, ⟨d', s'.lexer.cursor⟩⟩ :=
      reading_of_ok (Lexer.next_of_ok hd)
    by_cases heof : token.kind = .eof
    · -- both texts end together, so nothing comes after the seam
      rw [heof] at honward
      obtain ⟨before, -, -, -, hrest, hrest'⟩ := honward.rest
      obtain ⟨-, rfl⟩ := List.append_eq_nil_iff.mp hrest.symm
      obtain ⟨-, rfl⟩ := List.append_eq_nil_iff.mp hrest'.symm
      refine ⟨1, s₁, ⟨s'.graph, ⟨d', s'.lexer.cursor⟩⟩, hgraph.trans hs.1, ⟨honward.nil, .inr rfl⟩,
        ⟨honward.nil', .inr rfl⟩, fun k => ?_⟩
      rw [Nat.add_comm, graphOf_statements_of_eof hnext heof,
        graphOf_statements_of_eof hnext' (hkind ▸ heof), graphOf_statements_of_nil honward.nil,
        graphOf_statements_of_nil honward.nil']
      exact ⟨rfl, rfl⟩
    rw [if_neg heof] at hrest
    obtain ⟨_, s₂, hstatement, hrest⟩ := bind_eq_ok.mp hrest
    obtain ⟨s₂', hstatement', hs₂, hleft₂⟩ := statement_of_sameLine (steady_seam h h') hscope hs.1
      hstart hsame hleft hnext heof hkind honward hstatement
    obtain ⟨j, u, u', hgraphs, hu, hu', hruns⟩ := ih hs₂ hleft₂ hrest
    refine ⟨j + 1, u, u', hgraphs, hu, hu', fun k => ?_⟩
    rw [Nat.add_right_comm, statements_of_statement hnext heof hstatement,
      statements_of_statement hnext' (hkind ▸ heof) hstatement']
    exact hruns k

/-! ## Texts at a seam -/

/-- From a place between lines on, what is left is carried out like a text of its own. -/
theorem graphOf_statements_of_between {s : Loader} (hs : s.lexer.Between text)
    (hn : text.length < n) : graphOf (statements nested ⟨path, scope⟩ n s) = .ok () g' ↔
      loadText nested path text scope s.graph = .ok () g' := by
  have hcase {s s' : Loader} (hs : s.lexer.Between text) (hs' : s'.lexer.Between text)
      (hgraph : s.graph = s'.graph)
      (hrun : graphOf (statements nested ⟨path, scope⟩ n s) = .ok () g') :
      graphOf (statements nested ⟨path, scope⟩ n s') = .ok () g' := by
    obtain ⟨t, hrun, hresult⟩ := graphOf_eq_ok.mp hrun
    have halike : Alike (On (Cursor.EndsLine Eq)) s s' := ⟨hgraph, hs.endsLine hs'⟩
    have hleft : s.left < n := lt_of_eq_of_lt (congrArg List.length hs.rest) hn
    obtain ⟨-, t', hrun', hgraph'⟩ | ⟨u, indent, note, hu, -⟩ :=
      statements_cases linesUp_eq le_rfl halike hleft hrun
    · exact graphOf_eq_ok.mpr ⟨t', hrun', hgraph'.symm.trans hresult⟩
    · have := congrArg List.length hu
      simp [commentLine] at this
      omega
  rw [loadText_eq_graphOf hn]
  exact ⟨hcase hs (Lexer.between_start text) rfl, hcase (Lexer.between_start text) hs rfl⟩

theorem loadText_nil (nested : Nested) (path : String) (scope : ScopeId) (g : Graph) :
    loadText nested path [] scope g = .ok () g :=
  (loadText_eq_graphOf (Nat.lt_succ_self _) ..).trans (graphOf_statements_of_nil rfl _)

/-- A text that begins with an indented line cannot be loaded. -/
theorem unindented_of_loadText (h : loadText nested path text scope g = .ok () g') :
    Unindented text := by
  rw [loadText_eq_graphOf (Nat.lt_succ_self _)] at h
  obtain ⟨t, hrun, -⟩ := graphOf_eq_ok.mp h
  rw [statements_succ] at hrun
  obtain ⟨token, s, hnext, hrest⟩ := bind_eq_ok.mp hrun
  refine ⟨token, s.lexer.cursor, (Lexer.next_eq_ok (reading_eq_ok hnext).1).1, fun hindent => ?_⟩
  rw [if_neg (by rw [hindent]; nofun)] at hrest
  obtain ⟨_, s₁, hstatement, -⟩ := bind_eq_ok.mp hrest
  rw [statement, hindent] at hstatement
  cases hstatement

/-- Whole lines in front of a text do what they do in front of any other one. -/
theorem exists_loadText_append (hbefore : WholeLines before)
    (hrest : Parted before rest) (hrest' : Parted before rest') (h : Unindented rest)
    (h' : Unindented rest') (path' : String)
    (hload : loadText nested path (before ++ rest) scope g = .ok () g') :
    ∃ g₁, loadText nested path rest scope g₁ = .ok () g' ∧ ∀ g'',
      loadText nested path' (before ++ rest') scope g = .ok () g'' ↔
        loadText nested path' rest' scope g₁ = .ok () g'' := by
  let k := (before ++ rest).length + (before ++ rest').length + 1
  have hs : Alike (On (Cursor.EndsLine (Seam rest rest'))) ⟨g, .start (before ++ rest)⟩
      ⟨g, .start (before ++ rest')⟩ :=
    ⟨rfl, .inl ⟨rfl, rfl, before, hbefore, hrest, hrest', rfl, rfl⟩⟩
  have hrun := (loadText_eq_graphOf (Nat.lt_succ_self _) ..).symm.trans hload
  obtain ⟨t, hrun, -⟩ := graphOf_eq_ok.mp hrun
  have hscope : (SourceFile.mk path scope).scope = (SourceFile.mk path' scope).scope := rfl
  obtain ⟨j, u, u', hgraph, hu, hu', hruns⟩ :=
    exists_seam hscope h h' hs (Nat.lt_succ_self _) hrun
  have hlength : (before ++ rest).length < j + k := by omega
  have hlength' : (before ++ rest').length < j + k := by omega
  refine ⟨u.graph, ?_, fun g'' => ?_⟩
  · rw [loadText_eq_graphOf hlength, (hruns k).1] at hload
    refine (graphOf_statements_of_between hu ?_).mp hload
    simp only [k, List.length_append]
    omega
  · rw [loadText_eq_graphOf hlength', (hruns k).2, hgraph]
    refine graphOf_statements_of_between hu' ?_
    simp only [k, List.length_append]
    omega

end Rebuild.Manifest
