import Rebuild.Proofs.Manifest.Declaring

/-!
# Build statements are read back

A build statement that names a rule that can be seen, and outputs that nothing makes so far, is
carried out: the graph has one edge more, with exactly the paths that were written.
-/

namespace Rebuild.Manifest

open Sequence (Succeeds bind_of_ok)

variable {g : Graph} {recipe : Recipe} {rest tail : List Char}

/-- A build statement is carried out from the end of its keyword on. -/
theorem succeeds_buildStatement (file : SourceFile) (line : WrittenBuild) (place : Location)
    {u : Loader} (hworded : Worded g)
    (hend : Cursor.EndsWith tail rest)
    (hrecipe : g.recipe? file.scope line.ruleName = some recipe)
    (hfree : ∀ n, (g.node n).path ∈ line.outs → (g.node n).producer = none)
    (hblock : statementBlock file g.scopes.all.size ⟨g.withScope file.scope, .start rest⟩ =
      .ok () u)
    (hpool : line.poolName u.graph recipe g.scopes.all.size = "" ∨
      (u.graph.findPool? (line.poolName u.graph recipe g.scopes.all.size)).isSome) :
    Succeeds (Stands g (Lexer.At (line.body ++ tail))) (buildStatement file place) fun _ t =>
      Cursor.EndsLine Eq u.lexer.cursor t.lexer.cursor ∧ ∃ edge, ReadsBack line g t.graph edge ∧
        edge.recipe = recipe ∧ edge.pool =
          poolNamed? u.graph (line.poolName u.graph recipe g.scopes.all.size) := by
  have hrule : IsWord line.ruleName := hworded.isWord_of_recipe? hrecipe
  refine (succeeds_reading (succeeds_buildLine hrule hend)).bind fun read => .given fun hread => ?_
  refine (succeeds_recipeOf (hread.ruleName ▸ hrecipe)).bind fun recipe' => .given ?_
  rintro rfl
  refine (succeeds_newScope file.scope).bind fun scope => .given fun hscope => ?_
  refine (succeeds_statementBlock (hscope ▸ hblock)).bind fun _ => ?_
  refine Succeeds.before (fun _ => Stands.over) ?_
  refine (succeeds_resolvePaths scope hread.explicitOuts (Entries.canonical _)).bind
    fun explicitOuts => ?_
  refine (succeeds_resolvePaths scope hread.implicitOuts (Section.canonical _)).bind
    fun implicitOuts => ?_
  refine (succeeds_resolvePaths scope hread.explicitIns (Entries.canonical _)).bind
    fun explicitIns => ?_
  refine (succeeds_resolvePaths scope hread.implicitIns (Section.canonical _)).bind
    fun implicitIns => ?_
  refine (succeeds_resolvePaths scope hread.orderOnlyIns (Section.canonical _)).bind
    fun orderOnlyIns => ?_
  refine (succeeds_resolvePaths scope hread.validations (Section.canonical _)).bind
    fun validations => ?_
  subst hscope
  intro s hs
  let edge : Edge := ⟨recipe', none, g.scopes.all.size, explicitOuts, implicitOuts, explicitIns,
    implicitIns, orderOnlyIns, validations, none⟩
  obtain ⟨hvalidations, hlists⟩ := List.forall_mem_cons.mp hs.lists
  obtain ⟨horderOnlyIns, hlists⟩ := List.forall_mem_cons.mp hlists
  obtain ⟨himplicitIns, hlists⟩ := List.forall_mem_cons.mp hlists
  obtain ⟨hexplicitIns, hlists⟩ := List.forall_mem_cons.mp hlists
  obtain ⟨himplicitOuts, hlists⟩ := List.forall_mem_cons.mp hlists
  obtain ⟨hexplicitOuts, -⟩ := List.forall_mem_cons.mp hlists
  have hpaths : HasPaths line s.graph edge := ⟨hexplicitOuts, himplicitOuts, hexplicitIns,
    himplicitIns, horderOnlyIns, hvalidations⟩
  obtain ⟨hnodes, hedges, hscope⟩ := statementBlock_graph hblock
  have hfree' : ∀ n, (u.graph.node n).path ∈ line.outs → (u.graph.node n).producer = none := by
    intro n
    rw [Graph.node, hnodes]
    exact hfree n
  obtain ⟨t, edge', hrun, hlexer, hback, hrecipe', hpool'⟩ :=
    exists_declareEdge file place hs.gains hpaths rfl hscope hfree' hpool
  have hends : Cursor.EndsLine Eq u.lexer.cursor t.lexer.cursor := by
    rw [hlexer]
    exact hs.lexer
  exact ⟨(), t, hrun, hends, edge', hback.of_edges hedges, hrecipe', hpool'⟩

theorem WrittenBuild.front (line : WrittenBuild) (text : List Char) :
    ∀ ch ∈ (line.body ++ text).head?, isIdentChar ch = false := by
  obtain ⟨⟨gap, path⟩, entries, hentries⟩ := List.exists_cons_of_ne_nil line.ne_nil
  have hspace : (line.body ++ text).head? = some ' ' := by
    simp [WrittenBuild.body, WrittenBuild.outsText, hentries, Entries.text_cons, spaces,
      List.replicate_succ]
  rw [hspace]
  simp [isIdentChar]

/-- A build statement is read back, however it is written and whatever comes after its line. The
bindings among that go into a scope of the statement, and `hblock` says what reading them does:
nothing if there are none, by `statementBlock_of_flush`. Wherever a manifest is read its rules are
named by words, by `Reaches.worded`. -/
theorem build_reads_back (nested : Nested) (file : SourceFile) (line : WrittenBuild) {s u : Loader}
    (hworded : Worded s.graph) (htext : s.lexer.cursor.rest = line.text ++ tail)
    (hend : Cursor.EndsWith tail rest)
    (hrecipe : s.graph.recipe? file.scope line.ruleName = some recipe)
    (hfree : ∀ n, (s.graph.node n).path ∈ line.outs → (s.graph.node n).producer = none)
    (hblock : statementBlock file s.graph.scopes.all.size
      ⟨s.graph.withScope file.scope, .start rest⟩ = .ok () u)
    (hpool : line.poolName u.graph recipe s.graph.scopes.all.size = "" ∨
      (u.graph.findPool? (line.poolName u.graph recipe s.graph.scopes.all.size)).isSome) :
    ∃ t edge, (∀ n, statements nested file (n + 1) s = statements nested file n t) ∧
      Cursor.EndsLine Eq u.lexer.cursor t.lexer.cursor ∧ ReadsBack line s.graph t.graph edge ∧
      edge.recipe = recipe ∧ edge.pool =
        poolNamed? u.graph (line.poolName u.graph recipe s.graph.scopes.all.size) := by
  rw [WrittenBuild.text, List.append_assoc] at htext
  obtain ⟨token, c, htoken, hkind, hc⟩ := Cursor.nextToken_build htext (line.front tail)
  have hnext : reading file Lexer.next s = .ok token { s with lexer := ⟨c, s.lexer.cursor⟩ } := by
    rw [reading, Lexer.next_of_ok htoken]
  have hstands : Stands s.graph (Lexer.At (line.body ++ tail))
      { s with lexer := ⟨c, s.lexer.cursor⟩ } := ⟨rfl, hc⟩
  obtain ⟨_, t, hrun, hends, edge, hedge⟩ := succeeds_buildStatement file line token.location
    hworded hend hrecipe hfree hblock hpool hstands
  refine ⟨t, edge, fun n => ?_, hends, hedge⟩
  rw [statements_succ, bind_of_ok _ hnext, if_neg (by simp [hkind]), statement, hkind]
  exact bind_of_ok _ hrun

/-- An object file and its log, made from two sources, the second one named in a line of its own. -/
def objectLine : WrittenBuild where
  explicitOuts := [(.single, .of "out 1" (by cbv))]
  ne_nil := nofun
  implicitOuts := some (⟨1, Gap.single.lines⟩, [(.single, .of "log" (by cbv))])
  colonGap := none
  ruleSpaces := 0
  ruleName := "cc"
  explicitIns := [(.single, .of "a:b" (by cbv)),
    (⟨0, ⟨[[' ', ' ']], by simp [isSpaceOrTab]⟩⟩, .of "c" (by cbv))]
  implicitIns := some (.single, [(.single, .of "h" (by cbv))])
  orderOnlyIns := some (.single, [])
  validations := some (.single, [(.single, .of "check" (by cbv))])
  endGap := none

/-- A graph with a rule and a pool. -/
def workbench : Graph :=
  { Graph.initial with
    scopes := ⟨#[⟨none, ∅, ⟨[("cc", 0)]⟩⟩]⟩
    rules := #[⟨"cc", ⟨[("command", .literal "cc")]⟩⟩]
    pools := #[⟨Graph.consolePool, 1⟩, ⟨"link", 2⟩] }

theorem worded_workbench : Worded workbench := by
  intro scope name hname
  cases scope with
  | zero =>
    obtain rfl : "cc" = name := by
      by_contra hne
      simp [workbench, Scopes.get, Bindings.contains, Bindings.find?, Bindings.findIn, hne] at hname
    exact ⟨by simp, by simp [isIdentChar]⟩
  | succ scope => cases hname

private theorem exists_bound {result : EStateM.Result Error Loader Unit} (p : Loader → Prop)
    [DecidablePred p]
    (h : (match result with | .ok _ u => decide (p u) | .error _ _ => false) = true) :
    ∃ u, result = .ok () u ∧ p u := by
  cases result with
  | ok _ u => exact ⟨u, rfl, of_decide_eq_true h⟩
  | error _ _ => cases h

/-- A binding after the line puts the statement into the pool. -/
theorem build_reads_back_object :
    objectLine.text = "build out$ 1  | log: cc a$:b $\n  c | h || |@ check".toList ∧
    ∃ t edge, (∀ n, statements standalone ⟨"build.ninja", Scopes.root⟩ (n + 1)
        ⟨workbench, .start (objectLine.text ++ "\n  pool = link\n".toList)⟩ =
      statements standalone ⟨"build.ninja", Scopes.root⟩ n t) ∧
      ReadsBack objectLine workbench t.graph edge ∧ edge.recipe = .rule 0 ∧
        edge.pool = some 1 := by
  refine ⟨by cbv, ?_⟩
  obtain ⟨u, hblock, hpool⟩ : ∃ u, statementBlock ⟨"build.ninja", Scopes.root⟩ 1
      ⟨workbench.withScope Scopes.root, .start "  pool = link\n".toList⟩ = .ok () u ∧
        poolNamed? u.graph (objectLine.poolName u.graph (.rule 0) 1) = some 1 :=
    exists_bound (fun u => poolNamed? u.graph (objectLine.poolName u.graph (.rule 0) 1) = some 1)
      (by cbv)
  have hnamed : objectLine.poolName u.graph (.rule 0) 1 = "" ∨
      (u.graph.findPool? (objectLine.poolName u.graph (.rule 0) 1)).isSome := by
    unfold poolNamed? at hpool
    split at hpool
    · next hempty => exact .inl hempty
    · rw [hpool]
      exact .inr rfl
  have hend : Cursor.EndsWith "\n  pool = link\n".toList "  pool = link\n".toList :=
    .inl (.lf _ _)
  have hrecipe : workbench.recipe? Scopes.root objectLine.ruleName = some (.rule 0) := by cbv
  obtain ⟨t, edge, hrun, -, hback, hmade, hedge⟩ :=
    build_reads_back standalone ⟨"build.ninja", Scopes.root⟩ objectLine
      (s := ⟨workbench, .start (objectLine.text ++ "\n  pool = link\n".toList)⟩)
      worded_workbench rfl hend hrecipe (fun _ _ => rfl) hblock hnamed
  exact ⟨t, edge, hrun, hback, hmade, hedge.trans hpool⟩

end Rebuild.Manifest
