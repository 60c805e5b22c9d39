import Rebuild.Proofs.Manifest.Seams

/-!
# Files that are included

A text may be cut between lines and its parts loaded one after the other. As `include` reads a file
into the same scope, a manifest that includes a file of whole lines is loaded like the one that has
these lines in place of the statement.
-/

namespace Rebuild.Manifest

open Lexer (On)
open Sequence (bind_eq_ok bind_of_ok run'_eq_some)

variable {text text' before more rest : List Char} {nested : Nested} {file : SourceFile}
  {path path' : String} {scope : ScopeId} {template : Template} {files : FileView} {depth : Nat}
  {g g' g₁ g₂ : Graph}

/-! ## Parts of a text -/

/-- Whole lines are carried out on their own first, and then the text after them. -/
theorem exists_loadText_of_append (hbefore : WholeLines before) (hhead : text.head? ≠ some '\n')
    (htext : Unindented text) (hload : loadText nested path (before ++ text) scope g = .ok () g') :
    ∃ g₁, loadText nested path before scope g = .ok () g₁ ∧
      loadText nested path text scope g₁ = .ok () g' := by
  obtain ⟨g₁, hrest, hfront⟩ :=
    exists_loadText_append hbefore (.of_head hhead _) (.nil _) htext unindented_nil path hload
  refine ⟨g₁, ?_, hrest⟩
  have hfront := (hfront g₁).mpr (loadText_nil ..)
  rwa [List.append_nil] at hfront

/-- Texts that can be loaded one after the other are loaded together like that, unless the end of the
first goes on in the second. -/
theorem loadText_append_of_parted (hbefore : WholeLines before) (hparted : Parted before more)
    (hload : loadText nested path before scope g = .ok () g₁)
    (hmore : loadText nested path' more scope g₁ = .ok () g₂) :
    loadText nested path' (before ++ more) scope g = .ok () g₂ := by
  rw [← List.append_nil before] at hload
  obtain ⟨g₁', hnil, hfront⟩ := exists_loadText_append hbefore (.nil _) hparted unindented_nil
    (unindented_of_loadText hmore) path' hload
  cases (loadText_nil ..).symm.trans hnil
  exact (hfront g₂).mpr hmore

/-- An empty line is passed over. -/
theorem loadText_emptyLine (h : loadText nested path ('\n' :: text) scope g = .ok () g') :
    loadText nested path text scope g = .ok () g' := by
  let s : Loader := ⟨g, .start ('\n' :: text)⟩
  have hend : Cursor.AtEnd (s.lexer.cursor.skipWhile isSpace) := by rintro c ⟨⟩; rfl
  have hnext := Lexer.next_of_ok (l := s.lexer) (Cursor.nextToken_of_atEnd rfl hend)
  rw [loadText_eq_graphOf (Nat.lt_succ_self _),
    statements_of_statement (reading_of_ok hnext) nofun rfl] at h
  exact (graphOf_statements_of_between ⟨rfl, .inl rfl⟩ (Nat.lt_succ_self _)).mp h

/-- A line end stays one in front of a text that does not go on with it. -/
theorem SameEnd.append (h : SameEnd text text rest rest) (hmore : more.head? ≠ some '\n') :
    SameEnd (text ++ more) (text ++ more) (rest ++ more) (rest ++ more) := by
  cases h with
  | lf => exact .lf ..
  | crlf => exact .crlf ..
  | cr hrest =>
    have hhead : (rest ++ more).head? ≠ some '\n' := by
      cases rest with
      | nil => exact hmore
      | cons c rest => exact hrest
    exact .cr hhead hhead

/-- Texts that are the same but for how lines end stay so behind the same text, if they do not go on
with its end. -/
theorem SameText.append_left (before : List Char) (h : SameText text text')
    (hhead : text.head? ≠ some '\n') (hhead' : text'.head? ≠ some '\n') :
    SameText (before ++ text) (before ++ text') := by
  induction hlength : before.length using Nat.strongRecOn generalizing before with
  | ind n ih =>
    subst hlength
    cases before with
    | nil => exact h
    | cons c before =>
      by_cases hc : isLineEnd c = true
      · obtain ⟨rest, hend⟩ := exists_sameEnd hc before
        exact .lineEnd (hend.append hhead) (hend.append hhead') (ih _ hend.length_eq.1 rest rfl)
      · exact .char (by simpa using hc) (ih _ (Nat.lt_succ_self _) before rfl)

/-- A text that begins with a line feed may begin with both characters of a line end instead. -/
theorem exists_sameText (text : List Char) :
    ∃ text', SameText text text' ∧ text'.head? ≠ some '\n' := by
  by_cases hhead : text.head? = some '\n'
  · obtain ⟨rest, rfl⟩ := List.head?_eq_some_iff.mp hhead
    exact ⟨'\r' :: '\n' :: rest, .lineEnd (.lf ..) (.crlf ..) (.refl rest), nofun⟩
  · exact ⟨text, .refl text, hhead⟩

/-- Texts that can be loaded one after the other can be loaded together. Where the end of the first
goes on in the second, an empty line is lost. -/
theorem loadText_append (hbefore : WholeLines before)
    (hload : loadText nested path before scope g = .ok () g₁)
    (hmore : loadText nested path' more scope g₁ = .ok () g₂) :
    loadText nested path' (before ++ more) scope g = .ok () g₂ := by
  by_cases hmerge : before.getLast? = some '\r' ∧ more.head? = some '\n'
  · obtain ⟨front, rfl⟩ := List.getLast?_eq_some_iff.mp hmerge.1
    obtain ⟨rest, rfl⟩ := List.head?_eq_some_iff.mp hmerge.2
    obtain ⟨rest', hsame, hhead⟩ := exists_sameText rest
    have hrest := hsame.loadText_eq nested path' scope g₁ ▸ loadText_emptyLine hmore
    have happend : SameText (front ++ ['\r'] ++ '\n' :: rest) (front ++ ['\r'] ++ rest') := by
      simp only [List.append_assoc, List.cons_append, List.nil_append]
      exact .append_left front (.lineEnd (.crlf ..) (.cr hhead hhead) hsame) nofun nofun
    rw [happend.loadText_eq]
    exact loadText_append_of_parted hbefore (.of_head hhead _) hload hrest
  · exact loadText_append_of_parted hbefore (fun hlast hhead => hmerge ⟨hlast, hhead⟩) hload hmore

/-! ## The statement in front of a text -/

/-- The path that is written in an `include` statement in front of the text. -/
def includedPath? (text : List Char) : Option Template :=
  if TokenKind.keyword? (String.ofList (text.takeWhile isIdentChar)) = some .include then
    (do
      let _ ← Lexer.next
      let written ← pathLine
      return written.template : Reading Template).run' (.start text)
  else none

/-- What comes after the first line of the text. -/
def afterLine (text : List Char) : List Char := (lineRest? (escapesIn text) false text).getD []

/-- A text that begins with the keyword has it as its first token. -/
theorem nextToken_of_include
    (h : TokenKind.keyword? (String.ofList (text.takeWhile isIdentChar)) = some .include) :
    text.head? ≠ some '\n' ∧ (Cursor.start text).NoComment ∧
      ∃ token c, (Cursor.start text).nextToken = .ok token c ∧ token.kind = .include := by
  have hword : (Cursor.start text).rest.takeWhile isIdentChar ≠ [] := by
    intro hnil
    rw [show text.takeWhile isIdentChar = [] from hnil, keyword?_nil] at h
    cases h
  obtain ⟨ch, u, rfl, -, hspace, hcomment, hend⟩ := front_of_word hword
  obtain ⟨hskip, hnext⟩ := Cursor.nextToken_of_word hword
  obtain ⟨token, c, htoken, hkind⟩ :=
    Cursor.tokenInLine_of_word_ne_nil (c := (Cursor.start (ch :: u)).inLine) (by rwa [hskip])
  refine ⟨?_, ?_, token, c, hnext.trans htoken, ?_⟩
  · rintro ⟨⟩
    cases hend
  · simp [Cursor.NoComment, Cursor.start, hspace, hcomment]
  · rw [hkind, hskip]
    exact congrArg (Option.getD · .ident) h

/-- The path is read up to the end of the line. -/
theorem between_of_pathLine {token : Token} {c : Cursor} {written : WrittenPath} {l : Lexer}
    (hcomment : (Cursor.start text).NoComment)
    (hnext : (Cursor.start text).nextToken = .ok token c) (hkind : token.kind = .include)
    (hread : pathLine ⟨c, .start text⟩ = .ok written l) : l.Between (afterLine text) := by
  -- the text shares the line with itself
  let R u u' := u = afterLine text ∧ u' = afterLine text
  have hsame : SameLine (escapesIn text) R false text text := .self ⟨rfl, rfl⟩
  obtain ⟨_, _, hnext', -, honward⟩ := Cursor.nextToken_of_sameLine (c := .start text)
    (d := .start text) rfl rfl hsame (fun h => absurd hcomment h) hnext
  cases hnext.symm.trans hnext'
  rw [hkind] at honward
  have hl : On (Cursor.SharesLine true R) ⟨c, .start text⟩ ⟨c, .start text⟩ := honward
  obtain ⟨-, _, _, hread', -, hends⟩ := echoes_pathLine hl hread
  cases hread.symm.trans hread'
  obtain hstart | hend := hends
  · exact ⟨hstart.rest.1, .inl hstart.start⟩
  · exact ⟨hend.nil.trans hend.rest.1, .inr hend.rest.1.symm⟩

/-- The statement is read up to the end of its line. -/
theorem exists_of_includedPath (h : includedPath? text = some template) :
    text.head? ≠ some '\n' ∧ ∃ token l written l', Lexer.next (.start text) = .ok token l ∧
      token.kind = .include ∧ pathLine l = .ok written l' ∧ written.template = template ∧
        l'.Between (afterLine text) := by
  unfold includedPath? at h
  split at h
  case isFalse => cases h
  case isTrue hkeyword =>
    obtain ⟨hhead, hcomment, token, c, hnext, hkind⟩ := nextToken_of_include hkeyword
    have hlexer := Lexer.next_of_ok (l := .start text) hnext
    obtain ⟨l', hrun⟩ := run'_eq_some.mp h
    rw [bind_of_ok _ hlexer] at hrun
    obtain ⟨written, _, hread, hpure⟩ := bind_eq_ok.mp hrun
    cases hpure
    exact ⟨hhead, token, _, written, l', hlexer, hkind, hread, rfl,
      between_of_pathLine hcomment hnext hkind hread⟩

/-- A file is read as soon as its path is. -/
theorem nested_eq_ok {s t : Loader} {written : WrittenPath} {l : Lexer}
    (hread : pathLine s.lexer = .ok written l)
    (h : (includeTarget file false >>= readInto nested) s = .ok () t) :
    nested (Path.canonical (s.graph.scopes.eval file.scope written.template)) file.scope s.graph =
      .ok () t.graph ∧ t.lexer = l := by
  have hreading : reading file pathLine s = .ok written ⟨s.graph, l⟩ := reading_of_ok hread
  have hpath : inspect (fun g => g.scopes.eval file.scope written.template) ⟨s.graph, l⟩ =
      .ok (s.graph.scopes.eval file.scope written.template) ⟨s.graph, l⟩ := rfl
  obtain ⟨target, u, htarget, hnested⟩ := bind_eq_ok.mp h
  rw [includeTarget, bind_of_ok _ hreading, bind_of_ok _ hpath] at htarget
  split at htarget
  · cases htarget
  · cases htarget
    unfold readInto at hnested
    split at hnested
    · next hrun => cases hnested; exact ⟨hrun, rfl⟩
    · cases hnested

/-- The statement in front of a text reads its file, and then what comes after its line is carried
out. -/
theorem exists_nested_of_include (hline : includedPath? text = some template)
    (hload : loadText nested path text scope g = .ok () g') :
    ∃ g₁, nested (Path.canonical (g.scopes.eval scope template)) scope g = .ok () g₁ ∧
      loadText nested path (afterLine text) scope g₁ = .ok () g' := by
  obtain ⟨-, token, l, written, l', hnext, hkind, hread, rfl, hl'⟩ := exists_of_includedPath hline
  have hreading : reading ⟨path, scope⟩ Lexer.next ⟨g, .start text⟩ = .ok token ⟨g, l⟩ :=
    reading_of_ok hnext
  have hlength : text.length < text.length + (afterLine text).length + 1 + 1 := by omega
  rw [loadText_eq_graphOf hlength] at hload
  obtain ⟨t, hrun, rfl⟩ := graphOf_eq_ok.mp hload
  rw [statements_succ, bind_of_ok _ hreading, if_neg (by rw [hkind]; nofun)] at hrun
  obtain ⟨_, s, hstatement, hrest⟩ := bind_eq_ok.mp hrun
  rw [statement_of_ownScope (by rw [hkind]; rfl)] at hstatement
  obtain ⟨hnested, rfl⟩ := nested_eq_ok hread hstatement
  have hafter : (afterLine text).length < text.length + (afterLine text).length + 1 := by omega
  refine ⟨s.graph, hnested, (graphOf_statements_of_between hl' hafter).mp ?_⟩
  exact graphOf_eq_ok.mpr ⟨t, hrest, rfl⟩

/-! ## Files in place of statements -/

/-- A file that can be read into a scope is one whose text can be loaded into it, by the file that it
is read in too. -/
theorem exists_read_of_loadFile (h : loadFile files depth path scope g = .ok () g') :
    ∃ bytes, files.read path = .ok bytes ∧
      loadText (loadFile files depth) path (Utf8.decodeLossy bytes) scope g = .ok () g' := by
  cases depth with
  | zero => cases h
  | succ depth =>
    rw [loadFile] at h
    dsimp only at h
    cases hread : files.read path with
    | error fault =>
      rw [hread] at h
      cases h
    | ok bytes =>
      rw [hread] at h
      dsimp only at h
      obtain ⟨path', s, hout⟩ | heq := (shallower_succ files depth).loadText path
        (Utf8.decodeLossy bytes) scope g
      · cases hout.symm.trans h
      · exact ⟨bytes, rfl, heq.symm.trans h⟩

/-- A manifest that can be loaded includes a file that can be read, whose path is looked up in the
graph at that point. If the file has whole lines and no comments, then the manifest with these lines
in place of the statement can be loaded as well, and what comes of it is the same graph. There may be
comments after the statement, but not before it. -/
theorem include_splices (files : FileView) (depth : Nat) (path : String) (scope : ScopeId)
    (g g' : Graph) {before text : List Char} {template : Template} (hbefore : WholeLines before)
    (hline : includedPath? text = some template)
    (hload : loadText (loadFile files depth) path (before ++ text) scope g = .ok () g') :
    ∃ g₁ bytes, loadText (loadFile files depth) path before scope g = .ok () g₁ ∧
      files.read (Path.canonical (g₁.scopes.eval scope template)) = .ok bytes ∧
      (WholeLines (Utf8.decodeLossy bytes) →
        loadText (loadFile files depth) path
          (before ++ (Utf8.decodeLossy bytes ++ afterLine text)) scope g = .ok () g') := by
  obtain ⟨hhead, token, l, _, _, hnext, hkind, -⟩ := exists_of_includedPath hline
  have hunindented : Unindented text :=
    ⟨token, l.cursor, (Lexer.next_eq_ok hnext).1, by rw [hkind]; nofun⟩
  obtain ⟨g₁, hfront, htext⟩ := exists_loadText_of_append hbefore hhead hunindented hload
  obtain ⟨g₂, hnested, hafter⟩ := exists_nested_of_include hline htext
  obtain ⟨bytes, hread, hfile⟩ := exists_read_of_loadFile hnested
  exact ⟨g₁, bytes, hfront, hread, fun hbytes =>
    loadText_append hbefore hfront (loadText_append hbytes hfile hafter)⟩

/-- The file that declares a rule may as well be written out. -/
theorem include_splices_rules : ∃ g,
    loadText (loadFile linkedFiles 1) "main.ninja" ("cflags = -g\n".toList ++
      "include rules.ninja\nbuild a.o: cc a.c\n".toList) Scopes.root .initial = .ok () g ∧
    loadText (loadFile linkedFiles 1) "main.ninja" ("cflags = -g\n".toList ++
      ("rule cc\n  command = cc\n".toList ++ "build a.o: cc a.c\n".toList)) Scopes.root .initial =
        .ok () g := by
  obtain ⟨g, hload⟩ : ∃ g, loadText (loadFile linkedFiles 1) "main.ninja" ("cflags = -g\n".toList ++
      "include rules.ninja\nbuild a.o: cc a.c\n".toList) Scopes.root .initial = .ok () g :=
    exists_graph (by cbv)
  have hbefore : WholeLines "cflags = -g\n".toList := .line (by decide) (by decide) .nil
  have hcommand : WholeLines "  command = cc\n".toList := .line (by decide) (by decide) .nil
  have hrules : WholeLines "rule cc\n  command = cc\n".toList :=
    .line (by decide) (by decide) hcommand
  have hline : includedPath? "include rules.ninja\nbuild a.o: cc a.c\n".toList =
      some (.literal "rules.ninja") := by cbv
  obtain ⟨g₁, bytes, -, hread, hsplice⟩ :=
    include_splices linkedFiles 1 "main.ninja" Scopes.root .initial g hbefore hline hload
  have hbytes : linkedFiles.read (Path.canonical "rules.ninja") =
      .ok (Utf8.encode "rule cc\n  command = cc\n".toList) := by cbv
  rw [Scopes.eval, Template.eval_literal, hbytes] at hread
  cases hread
  have hdecode : Utf8.decodeLossy (Utf8.encode "rule cc\n  command = cc\n".toList) =
      "rule cc\n  command = cc\n".toList := by cbv
  rw [hdecode] at hsplice
  exact ⟨g, hload, hsplice hrules⟩

end Rebuild.Manifest
