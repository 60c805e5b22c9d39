import Rebuild.Manifest.Load
import Rebuild.Proofs.Graph.Links
import Rebuild.Proofs.Sequence

/-!
# Manifests yield linked graphs

Whatever a manifest says, the graph that is loaded from it is linked, each of its edges makes
something, and none of its files is known from a dependency file only. A statement changes links
only where it adds an edge, and the nodes of that edge were all created before, when its paths were
resolved. So what holds of scans and builds of linked graphs holds of whatever was loaded.
-/

namespace Rebuild

namespace Graph

variable {g : Graph} {ids : List NodeId}

/-- A linked graph as statements declare it: each edge makes something, and each file was named by
a statement. -/
structure Declared (g : Graph) : Prop extends Linked g where
  makes : ∀ e < g.edges.size, (g.edge e).outs ≠ []
  named : ∀ n, (g.node n).fromDepfile = false

namespace Declared

theorem initial : Graph.initial.Declared where
  toLinked := .initial
  makes e he := absurd he (Nat.not_lt_zero e)
  named n := by simp [Graph.initial, node]; rfl

theorem congr {g' : Graph} (h : g.Declared) (hnodes : g'.nodes = g.nodes)
    (hedges : g'.edges = g.edges) : g'.Declared := by
  refine ⟨h.toLinked.congr hnodes hedges, fun e he => ?_, fun n => ?_⟩
  · rw [edge, hedges]
    exact h.makes e (hedges ▸ he)
  · rw [node, hnodes]
    exact h.named n

theorem ensureNode (h : g.Declared) (path : String) : (g.ensureNode path).2.Declared := by
  have hlinked := h.toLinked.ensureNode path
  revert hlinked
  unfold Graph.ensureNode
  cases hfind : g.findNode? path with
  | some n => exact fun _ => h
  | none =>
    refine fun hlinked => ⟨hlinked, h.makes, fun n => ?_⟩
    rw [node_push]
    split
    · rfl
    · exact h.named n

/-- Adding an edge that makes something. -/
theorem addEdge {g' : Graph} {edge : Edge} {id : EdgeId} (h : g.Declared)
    (hadd : g.addEdge edge = .ok (id, g')) (hmakes : edge.outs ≠ [])
    (houts : ∀ n ∈ edge.outs, n < g.nodes.size) (hins : ∀ n ∈ edge.ins, n < g.nodes.size)
    (hvals : ∀ n ∈ edge.validations, n < g.nodes.size) : g'.Declared := by
  obtain ⟨-, -, hedges, -, hnode⟩ := addEdge_ok hadd
  refine ⟨h.toLinked.addEdge hadd houts hins hvals, fun e he => ?_, fun n => ?_⟩
  · have hedge : g'.edge e = if e = g.edges.size then edge else g.edge e := by
      rw [← edge_push]
      exact congrArg (fun edges => edges.getD e default) hedges
    rw [hedge]
    split
    · exact hmakes
    · refine h.makes e ?_
      rw [hedges, Array.size_push] at he
      omega
  · rw [hnode]
    split <;> exact h.named n

/-- An edge is put into a pool. -/
theorem setPool (h : g.Declared) (id : EdgeId) (pool : PoolId) :
    (g.modifyEdge id ({ · with pool := some pool })).Declared := by
  refine ⟨h.toLinked.modifyEdge id (fun _ => rfl) (fun _ => rfl) (fun _ => rfl), fun e he => ?_,
    h.named⟩
  rw [size_edges_modifyEdge] at he
  rw [edge_modifyEdge]
  split <;> exact h.makes e he

end Declared

/-- A graph as statements declare it that has all of some nodes. -/
structure DeclaredWith (ids : List NodeId) (g : Graph) : Prop where
  declared : g.Declared
  lt : ∀ n ∈ ids, n < g.nodes.size

theorem DeclaredWith.congr {g' : Graph} (h : DeclaredWith ids g) (hnodes : g'.nodes = g.nodes)
    (hedges : g'.edges = g.edges) : DeclaredWith ids g' :=
  ⟨h.declared.congr hnodes hedges, hnodes ▸ h.lt⟩

theorem DeclaredWith.ensureNode (h : DeclaredWith ids g) (path : String) :
    DeclaredWith ((g.ensureNode path).1 :: ids) (g.ensureNode path).2 := by
  refine ⟨h.declared.ensureNode path, List.forall_mem_cons.mpr ?_⟩
  unfold Graph.ensureNode
  cases hfind : g.findNode? path with
  | some n => exact ⟨(findNode?_eq_some hfind).1, h.lt⟩
  | none =>
    have hsize : (g.nodes.push (.ofPath path)).size = g.nodes.size + 1 := Array.size_push _
    exact ⟨hsize ▸ Nat.lt_succ_self _, fun n hn => hsize ▸ Nat.lt_succ_of_lt (h.lt n hn)⟩

theorem foldl_addDefault (g : Graph) (targets : List NodeId) :
    (targets.foldl addDefault g).nodes = g.nodes ∧
      (targets.foldl addDefault g).edges = g.edges := by
  induction targets generalizing g with
  | nil => exact ⟨rfl, rfl⟩
  | cons n targets ih => exact ih (g.addDefault n)

end Graph

namespace Manifest

open Rebuild.Graph (DeclaredWith)

variable {α β σ : Type} {P : Graph → Prop} {file : SourceFile} {ids : List NodeId}

/-! ## What steps ensure -/

/-- From a graph with `P`, steps that succeed lead to one with `Q`, which may depend on their
result. -/
def Ensures (P : Graph → Prop) (work : Load α) (Q : α → Graph → Prop) : Prop :=
  ∀ ⦃s⦄, P s.graph → ∀ ⦃a t⦄, work s = .ok a t → Q a t.graph

/-- Steps that keep a property of the graph. -/
abbrev Maintains (P : Graph → Prop) (work : Load α) : Prop :=
  Ensures P work fun _ => P

namespace Ensures

variable {work : Load α} {Q : α → Graph → Prop}

theorem pure {a : α} (h : ∀ g, P g → Q a g) : Ensures P (pure a) Q := by
  rintro s hs _ _ ⟨⟩
  exact h _ hs

theorem bind {next : α → Load β} {Q' : β → Graph → Prop} (hfirst : Ensures P work Q)
    (hnext : ∀ a, Ensures (Q a) (next a) Q') : Ensures P (work >>= next) Q' := by
  intro s hs b t hrun
  obtain ⟨a, u, hwork, hrest⟩ := Sequence.bind_eq_ok.mp hrun
  exact hnext a (hfirst hs hwork) hrest

theorem ite {c : Prop} [Decidable c] {other : Load α} (hthen : Ensures P work Q)
    (helse : Ensures P other Q) : Ensures P (if c then work else other) Q := by
  split
  · exact hthen
  · exact helse

theorem reading (read : Reading α) : Maintains P (reading file read) := by
  intro s hs a t hrun
  unfold Manifest.reading at hrun
  split at hrun
  · cases hrun; exact hs
  · cases hrun

theorem inspect (f : Graph → α) : Ensures P (inspect f) fun a g => P g ∧ a = f g := by
  rintro s hs _ _ ⟨⟩
  exact ⟨hs, rfl⟩

theorem and {Q' : α → Graph → Prop} (h : Ensures P work Q) (h' : Ensures P work Q') :
    Ensures P work fun a g => Q a g ∧ Q' a g :=
  fun _ hs _ _ hrun => ⟨h hs hrun, h' hs hrun⟩

/-- What is known of a result may be used in what follows. -/
theorem given {R : Prop} (h : R → Ensures P work Q) : Ensures (fun g => P g ∧ R) work Q :=
  fun _ hs _ _ hrun => h hs.2 hs.1 hrun

theorem readingOk {read : Reading α} {R : α → Prop}
    (h : ∀ ⦃l a l'⦄, read l = .ok a l' → R a) :
    Ensures P (Manifest.reading file read) fun a g => P g ∧ R a := by
  intro s hs a t hrun
  unfold Manifest.reading at hrun
  split at hrun
  · next hread =>
    cases hrun
    exact ⟨hs, h hread⟩
  · cases hrun

/-- It often does not matter what was asked. -/
theorem inspectAny (f : Graph → α) : Maintains P (Manifest.inspect f) := by
  rintro s hs _ _ ⟨⟩
  exact hs

theorem change {f : Graph → Graph} {R : Graph → Prop} (h : ∀ g, P g → R (f g)) :
    Ensures P (change f) fun _ => R := by
  rintro s hs _ _ ⟨⟩
  exact h _ hs

theorem changeGet {f : Graph → α × Graph} (h : ∀ g, P g → Q (f g).1 (f g).2) :
    Ensures P (changeGet f) Q := by
  rintro s hs _ _ ⟨⟩
  exact h _ hs

theorem faultAt {place : Location} {fault : SyntaxFault} :
    Ensures P (faultAt file place fault : Load α) Q := nofun

theorem faultAt_bind {place : Location} {fault : SyntaxFault} {next : β → Load α} :
    Ensures P (Manifest.faultAt file place fault >>= next) Q := nofun

end Ensures

/-! ## Parts of statements -/

theorem maintains_changeScopes (f : Scopes → Scopes) :
    Maintains (DeclaredWith ids) (changeScopes f) :=
  .change fun _ h => h.congr rfl rfl

theorem maintains_newScope (parent : ScopeId) : Maintains (DeclaredWith ids) (newScope parent) :=
  .changeGet fun _ h => h.congr rfl rfl

theorem maintains_blockUpTo {step : σ → Location → String → Template → Load σ}
    (hstep : ∀ acc place name value, Maintains P (step acc place name value)) (n : Nat) (acc : σ) :
    Maintains P (blockUpTo file step n acc) := by
  induction n generalizing acc with
  | zero => exact .pure fun _ => id
  | succ n ih =>
    refine (Ensures.reading _).bind fun token => ?_
    cases token with
    | none => exact .pure fun _ => id
    | some _ =>
      refine (Ensures.reading _).bind fun place => ?_
      refine (Ensures.reading _).bind fun (name, value) => ?_
      exact (hstep acc place name value).bind ih

theorem maintains_block {step : σ → Location → String → Template → Load σ}
    (hstep : ∀ acc place name value, Maintains P (step acc place name value)) (acc : σ) :
    Maintains P (block file acc step) :=
  fun _ hs => maintains_blockUpTo hstep _ acc hs

/-- The graph has the nodes of the paths from then on. -/
theorem ensures_resolvePaths (scope : ScopeId) (paths : List WrittenPath) :
    Ensures (DeclaredWith ids) (resolvePaths file scope paths) fun nodes =>
      DeclaredWith (nodes ++ ids) := by
  induction paths generalizing ids with
  | nil => exact .pure fun _ => id
  | cons written paths ih =>
    refine (Ensures.inspectAny _).bind fun path => .ite .faultAt_bind ?_
    refine Ensures.bind (Q := fun node => DeclaredWith (node :: ids))
      (.changeGet fun _ h => h.ensureNode (Path.canonical path)) fun node => ?_
    refine ih.bind fun nodes => .pure fun g h => ⟨h.declared, fun n hn => h.lt n ?_⟩
    simp only [List.mem_append, List.mem_cons] at hn ⊢
    tauto

/-- There are as many nodes as paths. -/
theorem ensures_resolvePaths_ne_nil (scope : ScopeId) {paths : List WrittenPath}
    (hpaths : paths ≠ []) :
    Ensures P (resolvePaths file scope paths) fun nodes _ => nodes ≠ [] := by
  intro s _ nodes t hrun
  cases paths with
  | nil => exact absurd rfl hpaths
  | cons written paths =>
    obtain ⟨path, u, -, hrun⟩ := Sequence.bind_eq_ok.mp hrun
    dsimp only at hrun
    split at hrun
    · cases hrun
    · obtain ⟨node, v, -, hrun⟩ := Sequence.bind_eq_ok.mp hrun
      obtain ⟨rest, w, -, hrun⟩ := Sequence.bind_eq_ok.mp hrun
      obtain ⟨rfl, -⟩ := Sequence.pure_eq_ok.mp hrun
      exact List.cons_ne_nil _ _

/-- A build statement names an output. -/
theorem buildLine_explicitOuts {l l' : Lexer} {line : BuildLine} (h : buildLine l = .ok line l') :
    line.explicitOuts ≠ [] := by
  obtain ⟨outs, l₁, -, h⟩ := Sequence.bind_eq_ok.mp h
  dsimp only at h
  split at h
  · cases h
  next hne =>
  -- nothing that is read afterwards changes the outputs
  iterate 10 obtain ⟨_, _, -, h⟩ := Sequence.bind_eq_ok.mp h
  obtain ⟨rfl, -⟩ := Sequence.pure_eq_ok.mp h
  simpa using hne

theorem maintains_recipeOf (line : BuildLine) : Maintains P (recipeOf file line) := by
  refine .ite (.pure fun _ => id) ((Ensures.inspectAny _).bind fun found => ?_)
  split
  · exact .pure fun _ => id
  · exact .faultAt

/-! ## Statements -/

theorem maintains_ruleStatement : Maintains (DeclaredWith ids) (ruleStatement file) := by
  refine (Ensures.reading _).bind fun (place, name) => ?_
  refine (Ensures.inspectAny _).bind fun taken => .ite .faultAt_bind ?_
  refine (maintains_block (fun vars _ var value => ?_) ∅).bind fun vars => .ite .faultAt_bind ?_
  · exact .ite .faultAt_bind (.pure fun _ => id)
  refine (Ensures.changeGet fun _ h => ?_).bind fun rule => maintains_changeScopes _
  exact h.congr rfl rfl

theorem maintains_poolStatement : Maintains (DeclaredWith ids) (poolStatement file) := by
  refine (Ensures.reading _).bind fun (place, name) => ?_
  refine (Ensures.inspectAny _).bind fun found => .ite .faultAt_bind ?_
  refine (maintains_block (fun _ _ var value => ?_) none).bind fun depth => ?_
  · refine .ite .faultAt_bind ((Ensures.inspectAny _).bind fun text => ?_)
    split
    · exact .pure fun _ => id
    · exact .faultAt
  cases depth with
  | none => exact .faultAt
  | some depth =>
    refine .change fun g h => ?_
    unfold Graph.addPool?
    split
    · exact h
    · exact h.congr rfl rfl

theorem maintains_buildStatement (place : Location) :
    Maintains (DeclaredWith []) (buildStatement file place) := by
  refine (Ensures.readingOk fun _ _ _ => buildLine_explicitOuts).bind fun line => ?_
  refine .given fun hline => ?_
  refine (maintains_recipeOf line).bind fun recipe => ?_
  refine (maintains_newScope _).bind fun scope => ?_
  refine (maintains_block (fun _ _ _ _ => maintains_changeScopes _) ()).bind fun _ => ?_
  refine ((ensures_resolvePaths _ _).and (ensures_resolvePaths_ne_nil _ hline)).bind
    fun explicitOuts => .given fun hexplicit => ?_
  refine (ensures_resolvePaths _ _).bind fun implicitOuts => ?_
  refine (ensures_resolvePaths _ _).bind fun explicitIns => ?_
  refine (ensures_resolvePaths _ _).bind fun implicitIns => ?_
  refine (ensures_resolvePaths _ _).bind fun orderOnlyIns => ?_
  refine (ensures_resolvePaths _ _).bind fun validations => ?_
  refine (Ensures.inspectAny _).bind fun ins => (Ensures.inspectAny _).bind fun outs => ?_
  refine (maintains_changeScopes _).bind fun _ => ?_
  refine (Ensures.inspect _).bind fun added => ?_
  cases added with
  | error out => exact (Ensures.inspectAny _).bind fun _ => .faultAt
  | ok result =>
    obtain ⟨id, graph⟩ := result
    -- the one place where links are made
    refine (Ensures.change (R := DeclaredWith []) fun g h => ?_).bind fun _ => ?_
    · have hmakes : explicitOuts ++ implicitOuts ≠ [] := by simp [hexplicit]
      refine ⟨h.1.declared.addEdge h.2.symm hmakes ?_ ?_ ?_, nofun⟩ <;> intro n hn <;>
        refine h.1.lt n ?_ <;>
        simp only [Edge.outs, Edge.ins, Edge.nonOrderOnlyIns, List.mem_append] at hn ⊢ <;> tauto
    refine (Ensures.inspectAny _).bind fun poolName => .ite ?_ (.pure fun _ h => h)
    refine (Ensures.inspectAny _).bind fun pool => ?_
    split
    · exact .faultAt
    · exact .change fun g h => ⟨h.declared.setPool _ _, nofun⟩

theorem maintains_defaultStatement : Maintains (DeclaredWith []) (defaultStatement file) := by
  refine (Ensures.reading _).bind fun targets => ?_
  refine (ensures_resolvePaths _ _).bind fun nodes => .change fun g h => ?_
  obtain ⟨hnodes, hedges⟩ := g.foldl_addDefault nodes
  exact ⟨h.declared.congr hnodes hedges, nofun⟩

/-- Files that are read by statements of other ones leave graphs as statements declare them. -/
def KeepsDeclared (nested : Nested) : Prop :=
  ∀ path scope g g', g.Declared → nested path scope g = .ok () g' → g'.Declared

theorem maintains_includeStatement {nested : Nested} (hnested : KeepsDeclared nested)
    (ownScope : Bool) : Maintains (DeclaredWith []) (includeStatement nested file ownScope) := by
  refine (Ensures.reading _).bind fun written => ?_
  refine (Ensures.inspectAny _).bind fun path => .ite .faultAt_bind ?_
  refine .ite ((maintains_newScope _).bind fun scope => ?_)
    (Ensures.bind (Q := fun _ => DeclaredWith []) (.pure fun _ h => h) fun scope => ?_)
  all_goals
    intro s hs _ t hrun
    dsimp only at hrun
    split at hrun
    · next hload =>
      cases hrun
      exact ⟨hnested _ _ _ _ hs.declared hload, nofun⟩
    · cases hrun

theorem maintains_bindingStatement : Maintains (DeclaredWith ids) (bindingStatement file) := by
  refine (Ensures.reading _).bind fun _ => ?_
  exact (Ensures.reading _).bind fun (name, value) => maintains_changeScopes _

/-- One statement after the other keeps the graph declared, if the files that are included do. -/
theorem maintains_statements {nested : Nested} (hnested : KeepsDeclared nested) (n : Nat) :
    Maintains (DeclaredWith []) (statements nested file n) := by
  induction n with
  | zero => exact .pure fun _ => id
  | succ n ih =>
    refine (Ensures.reading _).bind fun token => ?_
    match token.kind with
    | .eof => exact .pure fun _ => id
    | .newline => exact ih
    | .build => exact (maintains_buildStatement _).bind fun _ => ih
    | .rule => exact maintains_ruleStatement.bind fun _ => ih
    | .pool => exact maintains_poolStatement.bind fun _ => ih
    | .default => exact maintains_defaultStatement.bind fun _ => ih
    | .include => exact (maintains_includeStatement hnested false).bind fun _ => ih
    | .subninja => exact (maintains_includeStatement hnested true).bind fun _ => ih
    | .ident => exact maintains_bindingStatement.bind fun _ => ih
    | .indent | .colon | .equals | .pipe | .pipe2 | .pipeAt => exact .faultAt_bind

/-! ## Manifests -/

theorem loadText_declared {nested : Nested} (hnested : KeepsDeclared nested) {path : String}
    {text : List Char} {scope : ScopeId} {g g' : Graph} (hg : g.Declared)
    (h : loadText nested path text scope g = .ok () g') : g'.Declared := by
  unfold loadText at h
  split at h
  · next s hrun =>
    cases h
    exact (maintains_statements hnested _ ⟨hg, nofun⟩ hrun).declared
  · cases h

theorem loadFile_declared (files : FileView) (depth : Nat) :
    KeepsDeclared (loadFile files depth) := by
  induction depth with
  | zero => exact fun _ _ _ _ _ => nofun
  | succ depth ih =>
    intro path scope g g' hg h
    rw [loadFile] at h
    dsimp only at h
    cases hread : files.read path with
    | error fault => rw [hread] at h; cases h
    | ok bytes => rw [hread] at h; exact loadText_declared ih hg h

/-- The graph of a manifest file is as its statements declare it. -/
theorem load_declared {files : FileView} {path : String} {g : Graph}
    (h : load files path = .ok g) : g.Declared := by
  unfold load at h
  split at h
  · next hrun =>
    cases h
    exact loadFile_declared files maxDepth path Scopes.root _ _ .initial hrun
  · cases h

/-- The graph of a manifest file is linked. -/
theorem load_linked {files : FileView} {path : String} {g : Graph}
    (h : load files path = .ok g) : g.Linked :=
  (load_declared h).toLinked

end Manifest

end Rebuild
