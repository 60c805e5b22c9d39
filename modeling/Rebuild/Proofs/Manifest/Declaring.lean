import Rebuild.Proofs.Manifest.RuleNames
import Rebuild.Proofs.Manifest.Sections

/-!
# Edges that build statements declare

After the first line of a build statement its bindings are read, its paths are looked up, and an
edge is declared for their nodes. Each of these steps succeeds, and what it does to the graph is
known: bindings change nothing but scopes, and looking up paths adds files that nothing makes.

What bindings there are depends on the text only, so it is enough to know what reading them does
from the start of that text.
-/

namespace Rebuild

namespace Environment

/-- The value of a name, empty if it is unbound. -/
def value (env : Environment) (name : String) : String :=
  match env.find? name with
  | some template => template.eval env
  | none => ""

theorem value_append_literal {vars : Bindings Template} {name text : String} (env : Environment)
    (h : vars.find? name = some (.literal text)) :
    value (vars.toList ++ env) name = text := by
  have hfind : find? (vars.toList ++ env) name = some (.literal text) := by
    obtain ⟨entries⟩ := vars
    rw [Bindings.find?] at h
    rw [find?]
    dsimp only at h ⊢
    induction entries with
    | nil => cases h
    | cons entry entries ih =>
      rw [List.cons_append, Bindings.findIn]
      rw [Bindings.findIn] at h
      split at h
      · next heq => rw [if_pos heq, h]
      · next hne => rw [if_neg hne, ih h]
  rw [value, hfind]
  exact Template.eval_literal ..

end Environment

namespace Graph

/-- The variables of a recipe. -/
def recipeVars (g : Graph) : Recipe → Environment
  | .phony => []
  | .rule r => (g.rule r).vars.toList

/-- The variables that an edge with a recipe and a scope sees. -/
def seenFrom (g : Graph) (recipe : Recipe) (scope : ScopeId) : Environment :=
  (g.scopes.get scope).vars.toList ++ (g.recipeVars recipe ++ g.scopes.environmentAround scope)

theorem edgeVar_eq (g : Graph) (id : EdgeId) (name : String) :
    g.edgeVar id name = (g.seenFrom (g.edge id).recipe (g.edge id).scope).value name := by
  rw [seenFrom, ← List.append_assoc]
  rfl

theorem seenFrom_congr {g g' : Graph} (hscopes : g'.scopes = g.scopes) (hrules : g'.rules = g.rules)
    (recipe : Recipe) (scope : ScopeId) : g'.seenFrom recipe scope = g.seenFrom recipe scope := by
  have hvars : g'.recipeVars recipe = g.recipeVars recipe := by
    cases recipe with
    | phony => rfl
    | rule r => rw [recipeVars, recipeVars, rule, rule, hrules]
  rw [seenFrom, seenFrom, hvars, hscopes]

/-- The graph with a scope for a statement. -/
def withScope (g : Graph) (parent : ScopeId) : Graph :=
  { g with scopes := (g.scopes.addChild parent).2 }

/-- The graph in which a statement sees its explicit inputs and outputs. -/
def withPaths (g : Graph) (scope : ScopeId) (ins outs : List String) : Graph :=
  { g with scopes := Manifest.bindPaths scope ins outs g.scopes }

end Graph

namespace Manifest

open Sequence (Succeeds bind_of_ok)

variable {α : Type} {file : SourceFile} {P P' : Lexer → Prop} {g : Graph} {line : WrittenBuild}
  {recipe : Recipe} {rest tail : List Char}

/-! ## Steps -/

/-- The graph, and where the lexer is. -/
def Stands (g : Graph) (P : Lexer → Prop) (s : Loader) : Prop := s.graph = g ∧ P s.lexer

theorem succeeds_reading {read : Reading α} {R : α → Prop}
    (h : Succeeds P read fun a l => R a ∧ P' l) :
    Succeeds (Stands g P) (reading file read) fun a s => R a ∧ Stands g P' s := by
  intro s hs
  obtain ⟨a, l, hread, ha, hl⟩ := h hs.2
  exact ⟨a, { s with lexer := l }, by rw [reading, hread], ha, hs.1, hl⟩

theorem succeeds_inspect {P : Loader → Prop} {f : Graph → α} {a : α}
    (h : ∀ s, P s → f s.graph = a) : Succeeds P (inspect f) fun b s => b = a ∧ P s :=
  fun s hs => ⟨f s.graph, s, rfl, h s hs, hs⟩

theorem succeeds_recipeOf {read : BuildLine}
    (h : g.recipe? file.scope read.ruleName = some recipe) :
    Succeeds (Stands g P) (recipeOf file read) fun a s => a = recipe ∧ Stands g P s := by
  intro s hs
  refine ⟨recipe, s, ?_, rfl, hs⟩
  unfold Graph.recipe? at h
  unfold recipeOf
  split at h
  · next hphony =>
    cases h
    rw [if_pos hphony]
    rfl
  · next hphony =>
    obtain ⟨rule, hrule, rfl⟩ := Option.map_eq_some_iff.mp h
    rw [if_neg hphony, bind_of_ok _ (show inspect _ s = .ok (some rule) s by
      rw [inspect, hs.1, hrule])]
    rfl

theorem succeeds_newScope (parent : ScopeId) : Succeeds (Stands g P) (newScope parent)
    fun scope s => scope = g.scopes.all.size ∧ Stands (g.withScope parent) P s := by
  rintro s ⟨rfl, hs⟩
  exact ⟨_, _, rfl, rfl, rfl, hs⟩

/-- Reads the bindings of a statement. -/
def statementBlock (file : SourceFile) (scope : ScopeId) : Load Unit :=
  block file () fun _ _ name value => changeScopes (·.bind scope name value)

theorem linesUp_eq : LinesUp Eq where
  length_le h := Nat.le_of_eq (congrArg List.length h)
  line := by
    rintro text _ rfl
    exact .inl (.refl (fun _ => rfl) ..)

/-- Bindings are read alike wherever they stand. -/
theorem succeeds_statementBlock {scope : ScopeId} {u : Loader}
    (h : statementBlock file scope ⟨g, .start rest⟩ = .ok () u) :
    Succeeds (Stands g (Lexer.Between rest)) (statementBlock file scope) fun _ =>
      Stands u.graph fun l => Cursor.EndsLine Eq u.lexer.cursor l.cursor := by
  rintro s ⟨rfl, hl⟩
  have halike : Alike (Lexer.On (Cursor.EndsLine Eq)) ⟨s.graph, .start rest⟩ s :=
    ⟨rfl, (Lexer.between_start rest).endsLine hl⟩
  have hechoes : Echoes Loader.left (Alike (Lexer.On (Cursor.EndsLine Eq)))
      (statementBlock file scope) (statementBlock file scope) Eq
        fun _ => Alike (Lexer.On (Cursor.EndsLine Eq)) := by
    unfold statementBlock
    exact echoes_block linesUp_eq.steady (fun _ _ _ name value =>
      echoes_change fun g => { g with scopes := g.scopes.bind scope name value })
        (fun _ _ _ _ _ => rfl) ()
  obtain ⟨-, _, t, hrun, -, hgraph, ht⟩ := hechoes halike h
  exact ⟨(), t, hrun, hgraph.symm, ht⟩

/-- There are no bindings where the text ends or goes on with a word. -/
theorem statementBlock_of_flush (file : SourceFile) (scope : ScopeId) (g : Graph)
    (h : ∀ ch ∈ rest.head?, isIdentChar ch = true) :
    statementBlock file scope ⟨g, .start rest⟩ = .ok () ⟨g, .start rest⟩ := by
  obtain ⟨token, d, htoken, hkind⟩ := Cursor.nextToken_of_flush (c := (Lexer.start rest).cursor) h
  have hpeek : Lexer.peek .indent (.start rest) = .ok none (.start rest) := by
    rw [Lexer.peek, Lexer.next_of_ok htoken]
    exact if_neg hkind
  have hnone : reading file (Lexer.peek .indent) ⟨g, .start rest⟩ = .ok none ⟨g, .start rest⟩ := by
    rw [reading, hpeek]
  rw [statementBlock, block, blockUpTo]
  exact bind_of_ok _ hnone

/-- Bindings change scopes and nothing else. -/
theorem statementBlock_graph {parent : ScopeId} {l : Lexer} {u : Loader}
    (h : statementBlock file g.scopes.all.size ⟨g.withScope parent, l⟩ = .ok () u) :
    u.graph.nodes = g.nodes ∧ u.graph.edges = g.edges ∧
      g.scopes.all.size < u.graph.scopes.all.size := by
  let Kept (g' : Graph) : Prop := g'.nodes = g.nodes ∧ g'.edges = g.edges ∧
    g.scopes.all.size < g'.scopes.all.size
  have hkept : Maintains Kept (statementBlock file g.scopes.all.size) := by
    refine maintains_block (fun _ _ name value => .change fun g' hg => ?_) ()
    obtain ⟨hnodes, hedges, hsize⟩ := hg
    exact ⟨hnodes, hedges, hsize.trans_eq (Scopes.size_bind ..).symm⟩
  exact hkept ⟨rfl, rfl, by simp [Graph.withScope, Scopes.addChild]⟩ h

/-! ## Paths -/

/-- The graph has gained files, among them those of the lists. -/
structure Over (g : Graph) (lists : List (List NodeId × List String)) (P : Lexer → Prop)
    (s : Loader) : Prop where
  gains : g.Gains s.graph
  lists : ∀ entry ∈ lists, s.graph.Lists entry.1 entry.2
  lexer : P s.lexer

theorem Stands.over {s : Loader} (h : Stands g P s) : Over g [] P s :=
  ⟨h.1 ▸ .refl _, by simp, h.2⟩

theorem succeeds_ensureNode {lists : List (List NodeId × List String)} (path : String) :
    Succeeds (Over g lists P) (changeGet (·.ensureNode path)) fun node =>
      Over g (([node], [path]) :: lists) P := by
  intro s hs
  have hgains := Graph.Gains.ensureNode s.graph path
  refine ⟨_, { s with graph := (s.graph.ensureNode path).2 }, rfl, hs.gains.trans hgains, ?_,
    hs.lexer⟩
  exact List.forall_mem_cons.mpr ⟨Graph.lists_ensureNode s.graph path,
    fun entry hentry => (hs.lists entry hentry).gains hgains⟩

/-- Canonical paths that were read as they were meant have nodes of their own. -/
theorem succeeds_resolvePaths (scope : ScopeId) {lists : List (List NodeId × List String)}
    {written : List WrittenPath} {paths : List String} (h : Spells written paths)
    (hpaths : ∀ path ∈ paths, path ≠ "" ∧ Path.canonical path = path) :
    Succeeds (Over g lists P) (resolvePaths file scope written) fun nodes =>
      Over g ((nodes, paths) :: lists) P := by
  induction written generalizing paths lists with
  | nil =>
    obtain rfl : paths = [] := by simpa [Spells, eq_comm] using h
    refine .pure fun s hs => ⟨hs.gains, List.forall_mem_cons.mpr ⟨?_, hs.lists⟩, hs.lexer⟩
    exact ⟨by simp, rfl⟩
  | cons first written ih =>
    obtain ⟨path, paths, rfl, hpath, hrest⟩ := List.map_eq_cons_iff.mp h.symm
    obtain ⟨⟨hne, hcanonical⟩, hmore⟩ := List.forall_mem_cons.mp hpaths
    refine (succeeds_inspect (a := path) fun s _ => ?_).bind fun path' => .given fun hpath' => ?_
    · rw [← show Template.literal path = first.template from hpath]
      exact Template.eval_literal ..
    subst hpath'
    rw [if_neg hne, hcanonical]
    refine (succeeds_ensureNode path').bind fun node => ?_
    refine (ih hrest.symm hmore).bind fun nodes => .pure fun s hs => ?_
    obtain ⟨hnodes, hlists⟩ := List.forall_mem_cons.mp hs.lists
    obtain ⟨hnode, hlists⟩ := List.forall_mem_cons.mp hlists
    exact ⟨hs.gains, List.forall_mem_cons.mpr ⟨hnode.append hnodes, hlists⟩, hs.lexer⟩

/-! ## The edge -/

/-- Puts an edge into the pool that its variables name, if they name one. -/
def joinPool (file : SourceFile) (place : Location) (id : EdgeId) : Load Unit := do
  let poolName ← inspect (·.edgeVar id "pool")
  if poolName ≠ "" then
    match ← inspect (·.findPool? poolName) with
    | none => faultAt file place (.unknownPool poolName)
    | some pool => change (·.modifyEdge id ({ · with pool := some pool }))

/-- Adds the edge of a statement whose paths have been looked up. -/
def declareEdge (file : SourceFile) (place : Location) (edge : Edge) : Load Unit := do
  let ins ← inspect (·.paths edge.explicitIns)
  let outs ← inspect (·.paths edge.explicitOuts)
  changeScopes (bindPaths edge.scope ins outs)
  match ← inspect (·.addEdge edge) with
  | .error out =>
    let path ← inspect fun g => (g.node out).path
    faultAt file place (.multipleProducers path)
  | .ok (id, graph) =>
    change fun _ => graph
    joinPool file place id

/-- The pool of a name, the empty name standing for none. -/
def poolNamed? (g : Graph) (name : String) : Option PoolId :=
  if name = "" then none else g.findPool? name

theorem modify_push (a : Array α) (x : α) (f : α → α) :
    (a.push x).modify a.size f = a.push (f x) := by
  refine Array.ext (by simp) fun i hi hi' => ?_
  simp only [Array.getElem_modify, Array.getElem_push]
  split
  · next h => subst h; simp
  · next h =>
    have hlt : i < a.size := by simp at hi'; omega
    simp [hlt]

/-- The last edge gets its pool. -/
theorem joinPool_eq (file : SourceFile) (place : Location) {edges : Array Edge} {edge : Edge}
    {s : Loader} {name : String} (hedges : s.graph.edges = edges.push edge)
    (hnone : edge.pool = none) (hname : s.graph.edgeVar edges.size "pool" = name)
    (hpool : name = "" ∨ (s.graph.findPool? name).isSome) :
    joinPool file place edges.size s = .ok () { s with
      graph := { s.graph with
        edges := edges.push { edge with pool := poolNamed? s.graph name } } } := by
  have hvar : inspect (·.edgeVar edges.size "pool") s = .ok name s := by rw [inspect, hname]
  unfold joinPool
  rw [bind_of_ok _ hvar]
  by_cases hempty : name = ""
  · rw [if_neg (not_not_intro hempty), poolNamed?, if_pos hempty, ← hnone, ← hedges]
    rfl
  · obtain ⟨pool, hfind⟩ := Option.isSome_iff_exists.mp (hpool.resolve_left hempty)
    have hfound : inspect (·.findPool? name) s = .ok (some pool) s := by rw [inspect, hfind]
    rw [if_pos hempty, bind_of_ok _ hfound, poolNamed?, if_neg hempty, hfind,
      ← modify_push edges edge ({ · with pool := some pool }), ← hedges]
    rfl

/-- An edge is declared if nothing makes its outputs and its pool exists. -/
theorem declareEdge_eq (file : SourceFile) (place : Location) {edge : Edge} {s : Loader}
    {seen : Graph} {name : String} (hnone : edge.pool = none)
    (hfree : ∀ n ∈ edge.outs, (s.graph.node n).producer = none)
    (hseen : seen = s.graph.withPaths edge.scope (s.graph.paths edge.explicitIns)
      (s.graph.paths edge.explicitOuts))
    (hname : (seen.seenFrom edge.recipe edge.scope).value "pool" = name)
    (hpool : name = "" ∨ (s.graph.findPool? name).isSome) :
    ∃ t, declareEdge file place edge s = .ok () t ∧ t.lexer = s.lexer ∧
      (∀ ids paths, s.graph.Lists ids paths → t.graph.Lists ids paths) ∧
      t.graph.scopes = seen.scopes ∧ t.graph.rules = seen.rules ∧
      t.graph.edges = s.graph.edges.push { edge with pool := poolNamed? s.graph name } := by
  have hedges : seen.edges = s.graph.edges := by rw [hseen]; rfl
  have hfree' : ∀ n ∈ edge.outs, (seen.node n).producer = none := by
    subst hseen
    exact hfree
  obtain ⟨nodes, hadd⟩ := Graph.exists_addEdge hfree'
  let linked : Graph := { seen with nodes := nodes, edges := seen.edges.push edge }
  have hlists (ids paths) (h : s.graph.Lists ids paths) : linked.Lists ids paths := by
    refine Graph.Lists.addEdge ?_ hadd
    subst hseen
    exact ⟨h.lt, h.paths⟩
  have hedge : linked.edge seen.edges.size = edge :=
    (Graph.edge_push { seen with nodes := nodes } edge seen.edges.size).trans (if_pos rfl)
  have hvar : linked.edgeVar seen.edges.size "pool" = name := by
    rw [Graph.edgeVar_eq, hedge, ← hname]
    rfl
  have hpools : linked.findPool? name = s.graph.findPool? name := by
    simp only [linked, hseen]
    rfl
  have hsees : changeScopes (bindPaths edge.scope (s.graph.paths edge.explicitIns)
      (s.graph.paths edge.explicitOuts)) s = .ok () { s with graph := seen } := by
    rw [hseen]
    rfl
  have hadds : inspect (·.addEdge edge) { s with graph := seen } =
      .ok (.ok (seen.edges.size, linked)) { s with graph := seen } := by
    rw [inspect, hadd]
  have hrun : declareEdge file place edge s =
      joinPool file place seen.edges.size { s with graph := linked } := by
    unfold declareEdge
    rw [bind_of_ok _ (show inspect (·.paths edge.explicitIns) s = .ok _ s from rfl),
      bind_of_ok _ (show inspect (·.paths edge.explicitOuts) s = .ok _ s from rfl),
      bind_of_ok _ hsees, bind_of_ok _ hadds]
    rfl
  have hjoins := joinPool_eq file place (s := { s with graph := linked }) rfl hnone hvar
    (by rwa [hpools])
  have hnamed : poolNamed? linked name = poolNamed? s.graph name := by
    rw [poolNamed?, poolNamed?, hpools]
  dsimp only at hjoins
  rw [hnamed] at hjoins
  -- what the pool is does not matter from here on
  generalize poolNamed? s.graph name = pool at hjoins ⊢
  refine ⟨_, hrun.trans hjoins, rfl, fun ids paths h => ?_, rfl, rfl, by rw [← hedges]⟩
  exact ⟨(hlists ids paths h).lt, (hlists ids paths h).paths⟩

/-- What a statement sees of its own paths. -/
theorem value_seenFrom (recipe : Recipe) {seen : Graph} {scope : ScopeId} {ins outs : List String}
    (hscope : scope < g.scopes.all.size) (hseen : seen.scopes = bindPaths scope ins outs g.scopes) :
    (seen.seenFrom recipe scope).value "in" = " ".intercalate ins ∧
      (seen.seenFrom recipe scope).value "out" = " ".intercalate outs := by
  have hvars : (seen.scopes.get scope).vars = (((g.scopes.get scope).vars.bind "in"
      (.literal (" ".intercalate ins))).bind "in_newline" (.literal ("\n".intercalate ins))).bind
        "out" (.literal (" ".intercalate outs)) := by
    rw [hseen, bindPaths, Scopes.vars_bind_literal, Scopes.vars_bind_literal,
      Scopes.vars_bind_literal]
    all_goals simpa using hscope
  constructor
  · rw [Graph.seenFrom, hvars]
    exact Environment.value_append_literal _ (by simp [Bindings.find?_bind])
  · rw [Graph.seenFrom, hvars]
    exact Environment.value_append_literal _ (by simp [Bindings.find?_bind])

/-! ## The statement -/

/-- The value of the pool variable that a statement with a line and bindings sees. -/
def WrittenBuild.poolName (line : WrittenBuild) (g : Graph) (recipe : Recipe) (scope : ScopeId) :
    String :=
  ((g.withPaths scope line.explicitIns.paths line.explicitOuts.paths).seenFrom recipe scope).value
    "pool"

/-- The nodes of an edge are those of the paths that were written, in their order. -/
structure HasPaths (line : WrittenBuild) (g : Graph) (edge : Edge) : Prop where
  explicitOuts : g.Lists edge.explicitOuts line.explicitOuts.paths
  implicitOuts : g.Lists edge.implicitOuts line.implicitOuts.paths
  explicitIns : g.Lists edge.explicitIns line.explicitIns.paths
  implicitIns : g.Lists edge.implicitIns line.implicitIns.paths
  orderOnlyIns : g.Lists edge.orderOnlyIns line.orderOnlyIns.paths
  validations : g.Lists edge.validations line.validations.paths

/-- A graph has got one edge more, which has the paths that were written. -/
structure ReadsBack (line : WrittenBuild) (g g' : Graph) (edge : Edge) : Prop
    extends HasPaths line g' edge where
  edges : g'.edges = g.edges.push edge
  ins : g'.edgeVar g.edges.size "in" = " ".intercalate line.explicitIns.paths
  outs : g'.edgeVar g.edges.size "out" = " ".intercalate line.explicitOuts.paths

/-- Only the edges before matter. -/
theorem ReadsBack.of_edges {g₀ g' : Graph} {edge : Edge} (h : ReadsBack line g g' edge)
    (hedges : g.edges = g₀.edges) : ReadsBack line g₀ g' edge :=
  ⟨h.toHasPaths, hedges ▸ h.edges, hedges ▸ h.ins, hedges ▸ h.outs⟩

theorem Entries.canonical (entries : Entries) :
    ∀ path ∈ entries.paths, path ≠ "" ∧ Path.canonical path = path := by
  intro path hpath
  obtain ⟨entry, -, rfl⟩ := List.mem_map.mp hpath
  exact ⟨entry.2.ne_empty, entry.2.canonical⟩

theorem Section.canonical (sec : Section) :
    ∀ path ∈ sec.paths, path ≠ "" ∧ Path.canonical path = path := by
  cases sec with
  | none => nofun
  | some sec => exact sec.2.canonical

/-- The edge of a statement is declared if nothing makes its outputs and its pool exists. -/
theorem exists_declareEdge (file : SourceFile) (place : Location) {edge : Edge} {s : Loader}
    (hgains : g.Gains s.graph)
    (hpaths : HasPaths line s.graph edge) (hnone : edge.pool = none)
    (hscope : edge.scope < g.scopes.all.size)
    (hfree : ∀ n, (g.node n).path ∈ line.outs → (g.node n).producer = none)
    (hpool : line.poolName g edge.recipe edge.scope = "" ∨
      (g.findPool? (line.poolName g edge.recipe edge.scope)).isSome) :
    ∃ t edge', declareEdge file place edge s = .ok () t ∧ t.lexer = s.lexer ∧
      ReadsBack line g t.graph edge' ∧ edge'.recipe = edge.recipe ∧
        edge'.pool = poolNamed? g (line.poolName g edge.recipe edge.scope) := by
  have houts := hpaths.explicitOuts.append hpaths.implicitOuts
  have hfree' : ∀ n ∈ edge.outs, (s.graph.node n).producer = none := by
    intro n hn
    rw [hgains.producer]
    by_cases hlt : n < g.nodes.size
    · refine hfree n ?_
      rw [← hgains.node hlt, WrittenBuild.outs, ← houts.paths]
      exact List.mem_map_of_mem hn
    · rw [Graph.node_of_size_le (Nat.le_of_not_lt hlt)]
      rfl
  -- the statement sees the same from the files that were added
  obtain ⟨added, -, heq⟩ := hgains
  let seen := s.graph.withPaths edge.scope (s.graph.paths edge.explicitIns)
    (s.graph.paths edge.explicitOuts)
  have hseen : seen.scopes = bindPaths edge.scope line.explicitIns.paths line.explicitOuts.paths
      g.scopes := by
    show bindPaths _ _ _ s.graph.scopes = _
    rw [hpaths.explicitIns.paths, hpaths.explicitOuts.paths, heq]
  have hrules : seen.rules = g.rules := by
    show s.graph.rules = _
    rw [heq]
  have hname : (seen.seenFrom edge.recipe edge.scope).value "pool" =
      line.poolName g edge.recipe edge.scope := by
    rw [WrittenBuild.poolName, ← Graph.seenFrom_congr]
    · exact hseen.symm
    · exact hrules.symm
  have hpools : s.graph.pools = g.pools := by rw [heq]
  have hfind (name : String) : s.graph.findPool? name = g.findPool? name := by
    rw [Graph.findPool?, hpools]
    rfl
  obtain ⟨t, hrun, hlexer, hlists, hscopes, hrules', hedges⟩ :=
    declareEdge_eq file place hnone hfree' rfl hname (by rwa [hfind])
  have hpoolNamed (name : String) : poolNamed? s.graph name = poolNamed? g name := by
    rw [poolNamed?, hfind]
    rfl
  have hedges' : s.graph.edges = g.edges := by rw [heq]
  rw [hpoolNamed, hedges'] at hedges
  generalize poolNamed? g (line.poolName g edge.recipe edge.scope) = pool at hedges ⊢
  have hedge : t.graph.edge g.edges.size = { edge with pool := pool } := by
    simp [Graph.edge, hedges]
  have hvars := value_seenFrom edge.recipe hscope (hscopes.trans hseen)
  refine ⟨t, _, hrun, hlexer, ⟨?_, hedges, ?_, ?_⟩, rfl, rfl⟩
  · exact ⟨hlists _ _ hpaths.explicitOuts, hlists _ _ hpaths.implicitOuts,
      hlists _ _ hpaths.explicitIns, hlists _ _ hpaths.implicitIns, hlists _ _ hpaths.orderOnlyIns,
      hlists _ _ hpaths.validations⟩
  · rw [Graph.edgeVar_eq, hedge]
    exact hvars.1
  · rw [Graph.edgeVar_eq, hedge]
    exact hvars.2

end Manifest

end Rebuild
