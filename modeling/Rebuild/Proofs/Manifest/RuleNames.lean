import Mathlib.Data.List.TakeWhile
import Rebuild.Proofs.Graph.Listing
import Rebuild.Proofs.Manifest.Linked
import Rebuild.Proofs.Manifest.Nesting
import Rebuild.Proofs.Manifest.Writing
import Rebuild.Proofs.Scopes

/-!
# Rules are named by words

The name of a rule is read as a word, and a rule is declared under no other name. So whatever a
build statement can name as its recipe, it names by a word.
-/

namespace Rebuild

namespace Scopes

theorem exists_get_of_mem_ancestors {s : Scopes} {scope : ScopeId} {sc : Scope}
    (h : sc ∈ s.ancestors scope) : ∃ other, sc = s.get other := by
  induction scope using Nat.strongRecOn with
  | ind scope ih =>
    rw [ancestors, List.mem_cons] at h
    obtain rfl | h := h
    · exact ⟨scope, rfl⟩
    split at h
    · split at h
      · next hparent => exact ih _ hparent h
      · cases h
    · cases h

end Scopes

/-- The recipe that is seen from a scope under a name. -/
def Graph.recipe? (g : Graph) (scope : ScopeId) (name : String) : Option Recipe :=
  if name = "phony" then some .phony else (g.scopes.findRule? scope name).map .rule

namespace Manifest

/-- Rules are declared under words only. -/
def Worded (g : Graph) : Prop :=
  ∀ scope name, (g.scopes.get scope).rules.contains name = true → IsWord name

variable {file : SourceFile} {g g' : Graph}

theorem Worded.isWord (h : Worded g) {scope : ScopeId} {name : String} {rule : RuleId}
    (hrule : g.scopes.findRule? scope name = some rule) : IsWord name := by
  obtain ⟨sc, hsc, hfind⟩ := List.exists_of_findSome?_eq_some hrule
  obtain ⟨other, rfl⟩ := Scopes.exists_get_of_mem_ancestors hsc
  exact h other name (by rw [Bindings.contains, hfind]; rfl)

theorem Worded.congr (h : Worded g) (hscopes : g'.scopes = g.scopes) : Worded g' := by
  rw [Worded, hscopes]
  exact h

theorem worded_initial : Worded .initial := by
  intro scope name
  have hrules : (Scopes.initial.get scope).rules = ∅ := by
    cases scope <;> rfl
  show (Scopes.initial.get scope).rules.contains name = true → _
  simp [hrules, Bindings.contains]

theorem isWord_of_ident {l l' : Lexer} {name : String} (h : Lexer.ident l = .ok name l') :
    IsWord name := by
  have hread := Lexer.withCursor_eq_ok h
  unfold Cursor.ident at hread
  dsimp only at hread
  split at hread
  · cases hread
  · next hne =>
    injection hread with hname
    subst hname
    exact ⟨by simpa using hne, by simpa using fun c hc => List.mem_takeWhile_imp hc⟩

theorem isWord_of_nameLine {l l' : Lexer} {result : Location × String}
    (h : nameLine l = .ok result l') : IsWord result.2 := by
  obtain ⟨_, _, -, h⟩ := Sequence.bind_eq_ok.mp h
  obtain ⟨_, _, -, h⟩ := Sequence.bind_eq_ok.mp h
  obtain ⟨name, _, hname, h⟩ := Sequence.bind_eq_ok.mp h
  obtain ⟨_, _, -, h⟩ := Sequence.bind_eq_ok.mp h
  obtain ⟨rfl, -⟩ := Sequence.pure_eq_ok.mp h
  exact isWord_of_ident hname

theorem Worded.isWord_of_recipe? (h : Worded g) {scope : ScopeId} {name : String}
    {recipe : Recipe} (hrecipe : g.recipe? scope name = some recipe) : IsWord name := by
  unfold Graph.recipe? at hrecipe
  split at hrecipe
  · next hphony =>
    rw [hphony]
    exact ⟨by simp, by simp [isIdentChar]⟩
  · obtain ⟨rule, hrule, -⟩ := Option.map_eq_some_iff.mp hrecipe
    exact h.isWord hrule

/-! ## Parts of statements -/

theorem worded_bind (scope : ScopeId) (name : String) (value : Template) :
    Maintains Worded (changeScopes (·.bind scope name value)) :=
  .change fun g h other => by
    rw [Scopes.rules_bind]
    exact h other

theorem worded_newScope (parent : ScopeId) : Maintains Worded (newScope parent) := by
  refine .changeGet fun g h other name => ?_
  show ((g.scopes.addChild parent).2.get other).rules.contains name = true → _
  rw [Scopes.get_addChild]
  split
  · nofun
  · exact h other name

theorem worded_addRule {name : String} (hname : IsWord name) (scope : ScopeId) (rule : RuleId) :
    Maintains Worded
      (changeScopes fun scopes => (scopes.addRule? scope name rule).getD scopes) := by
  refine .change fun g h => ?_
  show Worded { g with scopes := (g.scopes.addRule? scope name rule).getD g.scopes }
  cases hadd : g.scopes.addRule? scope name rule with
  | none => exact h
  | some scopes =>
    intro other name'
    show (scopes.get other).rules.contains name' = true → _
    obtain hrules | hrules := Scopes.rules_addRule? hadd other
    · rw [hrules]
      exact h other name'
    · rw [hrules, Bindings.contains, Bindings.find?_bind]
      split
      · next heq => exact fun _ => heq ▸ hname
      · exact h other name'

theorem worded_resolvePaths (scope : ScopeId) (paths : List WrittenPath) :
    Maintains Worded (resolvePaths file scope paths) := by
  induction paths with
  | nil => exact .pure fun _ => id
  | cons written paths ih =>
    refine (Ensures.inspectAny _).bind fun path => .ite .faultAt_bind ?_
    refine (Ensures.changeGet (Q := fun _ => Worded) fun g h => ?_).bind fun node =>
      ih.bind fun nodes => .pure fun _ => id
    obtain ⟨added, -, heq⟩ := Graph.Gains.ensureNode g (Path.canonical path)
    exact h.congr (by rw [heq])

/-! ## Statements -/

theorem worded_ruleStatement : Maintains Worded (ruleStatement file) := by
  refine (Ensures.readingOk fun _ _ _ => isWord_of_nameLine).bind fun (place, name) => ?_
  refine .given fun hname => ?_
  refine (Ensures.inspectAny _).bind fun taken => .ite .faultAt_bind ?_
  refine (maintains_block (fun vars _ var value => ?_) ∅).bind fun vars => .ite .faultAt_bind ?_
  · exact .ite .faultAt_bind (.pure fun _ => id)
  exact (Ensures.changeGet fun _ h => h.congr rfl).bind fun rule => worded_addRule hname _ _

theorem worded_poolStatement : Maintains Worded (poolStatement file) := by
  refine (Ensures.reading _).bind fun (place, name) => ?_
  refine (Ensures.inspectAny _).bind fun found => .ite .faultAt_bind ?_
  refine (maintains_block (fun _ _ var value => ?_) none).bind fun depth => ?_
  · refine .ite .faultAt_bind ((Ensures.inspectAny _).bind fun text => ?_)
    split
    · exact .pure fun _ => id
    · exact .faultAt
  cases depth with
  | none => exact .faultAt
  | some depth =>
    refine .change fun g h => ?_
    unfold Graph.addPool?
    split <;> exact h

theorem worded_buildStatement (place : Location) :
    Maintains Worded (buildStatement file place) := by
  refine (Ensures.reading _).bind fun line => (maintains_recipeOf line).bind fun recipe => ?_
  refine (worded_newScope _).bind fun scope => ?_
  refine (maintains_block (fun _ _ _ _ => worded_bind ..) ()).bind fun _ => ?_
  iterate 6 refine (worded_resolvePaths _ _).bind fun _ => ?_
  refine (Ensures.inspectAny _).bind fun ins => (Ensures.inspectAny _).bind fun outs => ?_
  have hbind : Maintains Worded (changeScopes (bindPaths scope ins outs)) :=
    .change fun g h other => by
      rw [bindPaths, Scopes.rules_bind, Scopes.rules_bind, Scopes.rules_bind]
      exact h other
  refine hbind.bind fun _ => (Ensures.inspect _).bind fun added => ?_
  cases added with
  | error out => exact (Ensures.inspectAny _).bind fun _ => .faultAt
  | ok result =>
    obtain ⟨id, graph⟩ := result
    refine (Ensures.change (R := Worded) fun g h => ?_).bind fun _ => ?_
    · obtain ⟨nodes, heq⟩ := Graph.exists_addEdge (Graph.addEdge_ok h.2.symm).2.1
      cases h.2.trans heq
      exact h.1.congr rfl
    refine (Ensures.inspectAny _).bind fun poolName => .ite ?_ (.pure fun _ h => h)
    refine (Ensures.inspectAny _).bind fun pool => ?_
    split
    · exact .faultAt
    · exact .change fun g h => h.congr rfl

theorem worded_defaultStatement : Maintains Worded (defaultStatement file) := by
  refine (Ensures.reading _).bind fun targets => (worded_resolvePaths _ _).bind fun nodes => ?_
  refine .change fun g h => h.congr ?_
  induction nodes generalizing g with
  | nil => rfl
  | cons n nodes ih => exact ih (g.addDefault n) h

/-- Files that are read by statements of other ones declare rules under words only. -/
def KeepsWorded (nested : Nested) : Prop :=
  ∀ path scope g g', Worded g → nested path scope g = .ok () g' → Worded g'

theorem worded_includeStatement {nested : Nested} (hnested : KeepsWorded nested)
    (ownScope : Bool) : Maintains Worded (includeStatement nested file ownScope) := by
  refine (Ensures.reading _).bind fun written => ?_
  refine (Ensures.inspectAny _).bind fun path => .ite .faultAt_bind ?_
  refine .ite ((worded_newScope _).bind fun scope => ?_)
    (Ensures.bind (Q := fun _ => Worded) (.pure fun _ h => h) fun scope => ?_)
  all_goals
    intro s hs _ t hrun
    dsimp only at hrun
    split at hrun
    · next hload =>
      cases hrun
      exact hnested _ _ _ _ hs hload
    · cases hrun

theorem worded_bindingStatement : Maintains Worded (bindingStatement file) := by
  refine (Ensures.reading _).bind fun _ => ?_
  exact (Ensures.reading _).bind fun (name, value) => worded_bind ..

theorem worded_statement {nested : Nested} (hnested : KeepsWorded nested) (token : Token) :
    Maintains Worded (statement nested file token) := by
  unfold statement
  match token.kind with
  | .eof | .newline => exact .pure fun _ => id
  | .build => exact worded_buildStatement _
  | .rule => exact worded_ruleStatement
  | .pool => exact worded_poolStatement
  | .default => exact worded_defaultStatement
  | .include => exact worded_includeStatement hnested false
  | .subninja => exact worded_includeStatement hnested true
  | .ident => exact worded_bindingStatement
  | .indent | .colon | .equals | .pipe | .pipe2 | .pipeAt => exact .faultAt

theorem worded_statements {nested : Nested} (hnested : KeepsWorded nested) (n : Nat) :
    Maintains Worded (statements nested file n) := by
  induction n with
  | zero => exact .pure fun _ => id
  | succ n ih =>
    rw [statements_succ]
    refine (Ensures.reading _).bind fun token => .ite (.pure fun _ => id) ?_
    exact (worded_statement hnested token).bind fun _ => ih

/-! ## Manifests -/

/-- However deep files are nested, rules are named by words. -/
theorem loadFile_worded (files : FileView) (depth : Nat) :
    KeepsWorded (loadFile files depth) := by
  induction depth with
  | zero => exact fun _ _ _ _ _ => nofun
  | succ depth ih =>
    intro path scope g g' hg h
    rw [loadFile] at h
    dsimp only at h
    cases hread : files.read path with
    | error fault => rw [hread] at h; cases h
    | ok bytes =>
      rw [hread] at h
      dsimp only [loadText] at h
      split at h
      · next s hrun =>
        cases h
        exact worded_statements ih _ hg hrun
      · cases h

/-- In the graph of a manifest file rules are named by words. -/
theorem load_worded {files : FileView} {path : String} (h : load files path = .ok g) :
    Worded g := by
  unfold load at h
  split at h
  · next hrun =>
    cases h
    exact loadFile_worded files maxDepth path Scopes.root _ _ worded_initial hrun
  · cases h

/-- So they are wherever a manifest has been carried out up to some statement. -/
theorem Reaches.worded {files : FileView} {s t : Loader} (h : Reaches files file s t)
    (hs : Worded s.graph) : Worded t.graph := by
  induction h with
  | refl => exact hs
  | step depth hnext _ hrun _ ih =>
    refine ih (worded_statement (loadFile_worded files depth) _ ?_ hrun)
    rwa [(reading_eq_ok hnext).2]

end Manifest

end Rebuild
