import Rebuild.Proofs.Graph.Listing
import Rebuild.Proofs.Manifest.Declaring
import Rebuild.Proofs.Manifest.Nesting
import Rebuild.Proofs.Scopes

/-!
# Scopes that are left alone

Statements declare things in the scope that their file is read into and in scopes that they create.
All other scopes stay exactly as they are, whether the statements succeed or fail and however files
are nested. So what is declared in a file that `subninja` reads is not seen outside of it, while the
file sees what is declared around it, as far as it does not declare that itself.
-/

namespace Rebuild

/-! ## Graphs that differ beyond a bound -/

/-- All scopes below the bound and all rules are what they were. Each scope is still in the one in
which it was created. -/
structure Graph.Beyond (bound : ScopeId) (g g' : Graph) : Prop where
  size_le : g.scopes.all.size ≤ g'.scopes.all.size
  scope : ∀ i < bound, g'.scopes.get i = g.scopes.get i
  parent : ∀ i < g.scopes.all.size, (g'.scopes.get i).parent = (g.scopes.get i).parent
  rules_le : g.rules.size ≤ g'.rules.size
  rule : ∀ r < g.rules.size, g'.rule r = g.rule r

namespace Graph.Beyond

variable {bound scope : ScopeId} {g g' g'' : Graph}

theorem refl (bound : ScopeId) (g : Graph) : Beyond bound g g :=
  ⟨Nat.le_refl _, fun _ _ => rfl, fun _ _ => rfl, Nat.le_refl _, fun _ _ => rfl⟩

theorem trans (h : Beyond bound g g') (h' : Beyond bound g' g'') : Beyond bound g g'' where
  size_le := h.size_le.trans h'.size_le
  scope i hi := (h'.scope i hi).trans (h.scope i hi)
  parent i hi := (h'.parent i (hi.trans_le h.size_le)).trans (h.parent i hi)
  rules_le := h.rules_le.trans h'.rules_le
  rule r hr := (h'.rule r (hr.trans_le h.rules_le)).trans (h.rule r hr)

theorem mono {bound' : ScopeId} (h : Beyond bound g g') (hle : bound' ≤ bound) :
    Beyond bound' g g' :=
  { h with scope := fun i hi => h.scope i (hi.trans_le hle) }

theorem of_eq (bound : ScopeId) (hscopes : g'.scopes = g.scopes) (hrules : g'.rules = g.rules) :
    Beyond bound g g' where
  size_le := Nat.le_of_eq (by rw [hscopes])
  scope _ _ := by rw [hscopes]
  parent _ _ := by rw [hscopes]
  rules_le := Nat.le_of_eq (by rw [hrules])
  rule _ _ := by rw [Graph.rule, Graph.rule, hrules]

theorem addRule (bound : ScopeId) (g : Graph) (rule : Rule) : Beyond bound g (g.addRule rule).2 where
  size_le := Nat.le_refl _
  scope _ _ := rfl
  parent _ _ := rfl
  rules_le := by simp [Graph.addRule]
  rule r hr := by
    show (g.rules.push rule).getD r default = g.rules.getD r default
    simp only [Array.getD_eq_getD_getElem?]
    rw [Array.getElem?_push_lt hr, Array.getElem?_eq_getElem hr]

/-- Something is declared in a scope from the bound on. -/
theorem modifyScope (hscope : bound ≤ scope) {f : Scope → Scope}
    (hf : ∀ sc, (f sc).parent = sc.parent) (g : Graph) :
    Beyond bound g { g with scopes := ⟨g.scopes.all.modify scope f⟩ } where
  size_le := Nat.le_of_eq (Array.size_modify ..).symm
  scope i hi := by
    rw [Scopes.get_modify, if_neg]
    rintro ⟨rfl, -⟩
    exact absurd hi (Nat.not_lt.mpr hscope)
  parent i _ := by
    rw [Scopes.get_modify]
    split
    · exact hf _
    · rfl
  rules_le := Nat.le_refl _
  rule _ _ := rfl

theorem bind (hscope : bound ≤ scope) (name : String) (value : Template) (g : Graph) :
    Beyond bound g { g with scopes := g.scopes.bind scope name value } :=
  .modifyScope hscope (f := fun sc => { sc with vars := sc.vars.bind name _ }) (fun _ => rfl) g

theorem bindPaths (hscope : bound ≤ scope) (ins outs : List String) (g : Graph) :
    Beyond bound g (g.withPaths scope ins outs) :=
  ((bind hscope _ _ g).trans (bind hscope _ _ _)).trans (bind hscope _ _ _)

theorem declareRule (hscope : bound ≤ scope) (name : String) (rule : RuleId) (g : Graph) :
    Beyond bound g
      { g with scopes := (g.scopes.addRule? scope name rule).getD g.scopes } := by
  unfold Scopes.addRule?
  split
  · exact .refl bound g
  · exact .modifyScope hscope (f := fun sc => { sc with rules := sc.rules.bind name rule })
      (fun _ => rfl) g

/-- A scope is created. -/
theorem withScope (hbound : bound ≤ g.scopes.all.size) (parent : ScopeId) :
    Beyond bound g (g.withScope parent) where
  size_le := by simp [Graph.withScope, Scopes.addChild]
  scope i hi := by
    rw [Graph.withScope, Scopes.get_addChild, if_neg (Nat.ne_of_lt (hi.trans_le hbound))]
  parent i hi := by
    rw [Graph.withScope, Scopes.get_addChild, if_neg (Nat.ne_of_lt hi)]
  rules_le := Nat.le_refl _
  rule _ _ := rfl

end Graph.Beyond

namespace Manifest

open Sequence (Keeps KeepsFrom bind_of_ok bind_of_error)

variable {α β σ : Type} {bound scope : ScopeId} {file : SourceFile} {nested : Nested}

/-! ## Steps that stay beyond a bound -/

/-- If all scopes below the bound are there, they are left alone. -/
def Spared (bound : ScopeId) (s t : Loader) : Prop :=
  bound ≤ s.graph.scopes.all.size → s.graph.Beyond bound t.graph

theorem Spared.trans {s t u : Loader} (h : Spared bound s t) (h' : Spared bound t u) :
    Spared bound s u :=
  fun hbound => (h hbound).trans (h' (hbound.trans (h hbound).size_le))

/-- Work that leaves the scopes below the bound alone. -/
abbrev StaysBeyond (bound : ScopeId) (work : Load α) : Prop := Keeps (Spared bound) work

namespace StaysBeyond

theorem pure (a : α) : StaysBeyond bound (pure a) := fun _ _ => .refl ..

theorem bind {first : Load α} {next : α → Load β} (hfirst : StaysBeyond bound first)
    (hnext : ∀ a, StaysBeyond bound (next a)) : StaysBeyond bound (first >>= next) :=
  Keeps.bind (R := Spared bound) (fun _ _ _ h h' => h.trans h') hfirst hnext

theorem reading (read : Reading α) : StaysBeyond bound (reading file read) := by
  intro s
  unfold Manifest.reading
  cases read s.lexer <;> exact fun _ => .refl ..

theorem inspect (f : Graph → α) : StaysBeyond bound (inspect f) := fun _ _ => .refl ..

theorem change {f : Graph → Graph}
    (hf : ∀ g : Graph, bound ≤ g.scopes.all.size → g.Beyond bound (f g)) : StaysBeyond bound (change f) :=
  fun _ => hf _

theorem changeGet {f : Graph → α × Graph}
    (hf : ∀ g : Graph, bound ≤ g.scopes.all.size → g.Beyond bound (f g).2) :
    StaysBeyond bound (changeGet f) :=
  fun _ => hf _

theorem faultAt (place : Location) (fault : SyntaxFault) :
    StaysBeyond bound (faultAt file place fault : Load α) := fun _ _ => .refl ..

theorem ite {c : Prop} [Decidable c] {work other : Load α} (hthen : StaysBeyond bound work)
    (helse : StaysBeyond bound other) : StaysBeyond bound (if c then work else other) := by
  split
  · exact hthen
  · exact helse

/-- Work that is done unless something is at fault. -/
theorem check {c : Prop} [Decidable c] {place : Location} {fault : SyntaxFault}
    {next : α → Load β} {work : Load β} (h : StaysBeyond bound work) :
    StaysBeyond bound (if c then Manifest.faultAt file place fault >>= next else work) :=
  .ite (fun _ _ => .refl ..) h

/-- What was asked may be used in what follows. -/
theorem inspectBind {f : Graph → α} {next : α → Load β}
    (hnext : ∀ s, KeepsFrom (Spared bound) s (next (f s.graph))) :
    StaysBeyond bound (Manifest.inspect f >>= next) :=
  .of_from hnext

/-- A scope that is created now is not below the bound. -/
theorem newScopeBind {parent : ScopeId} {next : ScopeId → Load β}
    (hnext : ∀ scope, bound ≤ scope → StaysBeyond bound (next scope)) :
    StaysBeyond bound (newScope parent >>= next) := by
  refine .of_from fun s => ?_
  have hcreated : newScope parent s =
      .ok s.graph.scopes.all.size { s with graph := s.graph.withScope parent } := rfl
  by_cases hbound : bound ≤ s.graph.scopes.all.size
  · have hscope : Spared bound s { s with graph := s.graph.withScope parent } :=
      fun _ => .withScope hbound parent
    exact .after hcreated (fun _ => hscope.trans) ((hnext _ hbound).from _)
  · unfold KeepsFrom
    split
    all_goals exact fun h => absurd h hbound

theorem blockUpTo {step : σ → Location → String → Template → Load σ}
    (hstep : ∀ acc place name value, StaysBeyond bound (step acc place name value)) (n : Nat)
    (acc : σ) : StaysBeyond bound (blockUpTo file step n acc) := by
  induction n generalizing acc with
  | zero => exact .pure acc
  | succ n ih =>
    refine (reading _).bind fun token => ?_
    cases token with
    | none => exact .pure acc
    | some token =>
      refine (reading _).bind fun place => (reading _).bind fun (name, value) => ?_
      exact (hstep acc place name value).bind ih

theorem block {step : σ → Location → String → Template → Load σ}
    (hstep : ∀ acc place name value, StaysBeyond bound (step acc place name value)) (acc : σ) :
    StaysBeyond bound (block file acc step) :=
  fun s => StaysBeyond.blockUpTo hstep (s.lexer.cursor.rest.length + 1) acc s

theorem resolvePaths (scope : ScopeId) (paths : List WrittenPath) :
    StaysBeyond bound (resolvePaths file scope paths) := by
  induction paths with
  | nil => exact .pure []
  | cons written paths ih =>
    refine (inspect _).bind fun path => .check ?_
    refine (changeGet fun g _ => ?_).bind fun node => ih.bind fun nodes => .pure _
    obtain ⟨added, -, heq⟩ := Graph.Gains.ensureNode g (Path.canonical path)
    exact .of_eq _ (by rw [heq]) (by rw [heq])

end StaysBeyond

/-! ## Statements -/

theorem staysBeyond_ruleStatement (hscope : bound ≤ file.scope) :
    StaysBeyond bound (ruleStatement file) := by
  refine (StaysBeyond.reading _).bind fun (place, name) => ?_
  refine (StaysBeyond.inspect _).bind fun taken => .check ?_
  refine (StaysBeyond.block (fun vars varPlace var value => .check (.pure _)) _).bind fun vars =>
    .check ?_
  refine (StaysBeyond.changeGet fun g _ => .addRule bound g _).bind fun rule => ?_
  exact .change fun g _ => .declareRule hscope name rule g

theorem staysBeyond_poolStatement : StaysBeyond bound (poolStatement file) := by
  refine (StaysBeyond.reading _).bind fun (place, name) => ?_
  refine (StaysBeyond.inspect _).bind fun found => .check ?_
  refine (StaysBeyond.block (fun _ varPlace var value => .check ?_) _).bind fun depth => ?_
  · refine (StaysBeyond.inspect _).bind fun text => ?_
    split
    · exact .pure _
    · exact .faultAt _ _
  cases depth with
  | none => exact .faultAt _ _
  | some depth =>
    refine .change fun g _ => ?_
    unfold Graph.addPool?
    split
    · exact .refl ..
    · exact .of_eq _ rfl rfl

theorem staysBeyond_recipeOf (line : BuildLine) : StaysBeyond bound (recipeOf file line) := by
  refine .ite (.pure _) ((StaysBeyond.inspect _).bind fun found => ?_)
  split
  · exact .pure _
  · exact .faultAt _ _

theorem beyond_of_addEdge {g g' : Graph} {edge : Edge} {id : EdgeId} (bound : ScopeId)
    (h : g.addEdge edge = .ok (id, g')) : g.Beyond bound g' := by
  obtain ⟨nodes, heq⟩ := Graph.exists_addEdge (Graph.addEdge_ok h).2.1
  cases h.symm.trans heq
  exact .of_eq _ rfl rfl

theorem staysBeyond_joinPool (file : SourceFile) (place : Location) (id : EdgeId) :
    StaysBeyond bound (joinPool file place id) := by
  refine (StaysBeyond.inspect _).bind fun poolName => .ite ?_ (.pure _)
  refine (StaysBeyond.inspect _).bind fun pool => ?_
  cases pool with
  | none => exact .faultAt _ _
  | some pool => exact .change fun g _ => .of_eq _ rfl rfl

theorem staysBeyond_buildStatement (place : Location) :
    StaysBeyond bound (buildStatement file place) := by
  refine (StaysBeyond.reading _).bind fun line => ?_
  refine (staysBeyond_recipeOf line).bind fun recipe => ?_
  refine .newScopeBind fun scope hscope => ?_
  refine (StaysBeyond.block (fun _ _ name value => ?_) ()).bind fun _ => ?_
  · exact .change fun g _ => .bind hscope name value g
  iterate 6 refine (StaysBeyond.resolvePaths _ _).bind fun _ => ?_
  refine (StaysBeyond.inspect _).bind fun ins => (StaysBeyond.inspect _).bind fun outs => ?_
  refine (StaysBeyond.change fun g _ => .bindPaths hscope ins outs g).bind fun _ => ?_
  refine .inspectBind fun s => ?_
  cases hadd : s.graph.addEdge _ with
  | error out =>
    exact Keeps.from ((StaysBeyond.inspect _).bind fun path => .faultAt place (.multipleProducers path)) s
  | ok result =>
    obtain ⟨id, graph⟩ := result
    -- the edge is in the graph from here on, which has the scopes that it had before
    have hedge := beyond_of_addEdge bound hadd
    have hadded : Manifest.change (fun _ => graph) s = .ok () { s with graph := graph } := rfl
    exact .after hadded (fun _ => Spared.trans fun _ => hedge)
      ((staysBeyond_joinPool file place id).from _)

theorem staysBeyond_defaultStatement : StaysBeyond bound (defaultStatement file) := by
  refine (StaysBeyond.reading _).bind fun targets => ?_
  refine (StaysBeyond.resolvePaths _ _).bind fun nodes => .change fun g _ => ?_
  -- defaults are neither scopes nor rules
  induction nodes generalizing g with
  | nil => exact .refl bound g
  | cons node nodes ih =>
    have hone : g.Beyond bound (g.addDefault node) := .of_eq bound rfl rfl
    exact hone.trans (ih (g.addDefault node) (le_trans ‹_› hone.size_le))

theorem staysBeyond_bindingStatement (hscope : bound ≤ file.scope) :
    StaysBeyond bound (bindingStatement file) := by
  refine (StaysBeyond.reading _).bind fun _ => (StaysBeyond.reading _).bind fun (name, value) => ?_
  exact .change fun g _ => .bind hscope name value g

/-! ## Files -/

/-- Reading a file into a scope leaves all scopes before that one alone. -/
def KeepsBeyond (nested : Nested) : Prop :=
  ∀ ⦃bound scope⦄, bound ≤ scope → ∀ path,
    Keeps (fun g g' => bound ≤ g.scopes.all.size → g.Beyond bound g') (nested path scope)

theorem KeepsBeyond.readInto (h : KeepsBeyond nested) (hscope : bound ≤ scope) (path : String) :
    StaysBeyond bound (readInto nested (path, scope)) := by
  intro s
  have hs := h hscope path s.graph
  unfold Manifest.readInto
  dsimp only at hs ⊢
  cases hrun : nested path scope s.graph with
  | ok _ g =>
    rw [hrun] at hs
    exact hs
  | error e g =>
    rw [hrun] at hs
    exact hs

/-- A file that gets a scope of its own leaves all scopes alone that are there before. -/
theorem KeepsBeyond.includeStatement (h : KeepsBeyond nested) {ownScope : Bool}
    (hscope : ownScope = true ∨ bound ≤ file.scope) :
    StaysBeyond bound (includeStatement nested file ownScope) := by
  refine (StaysBeyond.reading _).bind fun written => (StaysBeyond.inspect _).bind fun path =>
    .check ?_
  cases ownScope with
  | true => exact .newScopeBind fun scope hnew => h.readInto hnew _
  | false => exact h.readInto (hscope.resolve_left nofun) _

theorem KeepsBeyond.statement (h : KeepsBeyond nested) (hscope : bound ≤ file.scope)
    (token : Token) : StaysBeyond bound (statement nested file token) := by
  unfold Manifest.statement
  match token.kind with
  | .eof | .newline => exact .pure ()
  | .build => exact staysBeyond_buildStatement _
  | .rule => exact staysBeyond_ruleStatement hscope
  | .pool => exact staysBeyond_poolStatement
  | .default => exact staysBeyond_defaultStatement
  | .include | .subninja => exact h.includeStatement (.inr hscope)
  | .ident => exact staysBeyond_bindingStatement hscope
  | .indent | .colon | .equals | .pipe | .pipe2 | .pipeAt => exact .faultAt _ _

theorem KeepsBeyond.statements (h : KeepsBeyond nested) (hscope : bound ≤ file.scope) (n : Nat) :
    StaysBeyond bound (statements nested file n) := by
  induction n with
  | zero => exact .pure ()
  | succ n ih =>
    rw [statements_succ]
    refine (StaysBeyond.reading _).bind fun token => .ite (.pure ()) ?_
    exact (h.statement hscope token).bind fun _ => ih

theorem keepsBeyond_loadFile (files : FileView) (depth : Nat) :
    KeepsBeyond (loadFile files depth) := by
  induction depth with
  | zero => exact fun bound scope _ path g _ => .refl bound g
  | succ depth ih =>
    intro bound scope hscope path g
    rw [loadFile]
    dsimp only
    cases files.read path with
    | error fault => exact fun _ => .refl bound g
    | ok bytes =>
      have hkept : StaysBeyond bound (statements (loadFile files depth) ⟨path, scope⟩
          ((Utf8.decodeLossy bytes).length + 1)) := ih.statements hscope _
      have hs := hkept ⟨g, .start (Utf8.decodeLossy bytes)⟩
      dsimp only
      unfold loadText
      cases hrun : statements (loadFile files depth) ⟨path, scope⟩
          ((Utf8.decodeLossy bytes).length + 1) ⟨g, .start (Utf8.decodeLossy bytes)⟩ with
      | ok _ t =>
        rw [hrun] at hs
        exact hs
      | error e t =>
        rw [hrun] at hs
        exact hs

/-! ## Scopes of files -/

/-- In a new scope inside another one, and in scopes inside of it, nothing has been done to what was
there before. What the new scope does not bind or declare is found from it as it is found from the
scope around it. -/
structure Encloses (outer : ScopeId) (g g' : Graph) : Prop where
  scope : ∀ i < g.scopes.all.size, g'.scopes.get i = g.scopes.get i
  rule : ∀ r < g.rules.size, g'.rule r = g.rule r
  findVar? : ∀ i < g.scopes.all.size, ∀ name, g'.scopes.findVar? i name = g.scopes.findVar? i name
  findRule? : ∀ i < g.scopes.all.size, ∀ name,
    g'.scopes.findRule? i name = g.scopes.findRule? i name
  inner_findVar? : g.scopes.all.size < g'.scopes.all.size → ∀ name,
    (g'.scopes.get g.scopes.all.size).vars.find? name = none →
      g'.scopes.findVar? g.scopes.all.size name = g.scopes.findVar? outer name
  inner_findRule? : g.scopes.all.size < g'.scopes.all.size → ∀ name,
    (g'.scopes.get g.scopes.all.size).rules.find? name = none →
      g'.scopes.findRule? g.scopes.all.size name = g.scopes.findRule? outer name

/-- A scope that is not there has nothing done to it. -/
theorem Encloses.refl (outer : ScopeId) (g : Graph) : Encloses outer g g :=
  ⟨fun _ _ => rfl, fun _ _ => rfl, fun _ _ _ => rfl, fun _ _ _ => rfl,
    fun hnew => absurd hnew (Nat.lt_irrefl _), fun hnew => absurd hnew (Nat.lt_irrefl _)⟩

theorem encloses_of_withScope {outer : ScopeId} {g g' : Graph} (houter : outer < g.scopes.all.size)
    (h : (g.withScope outer).Beyond g.scopes.all.size g') :
    g.scopes.all.size < g'.scopes.all.size ∧ Encloses outer g g' := by
  have hsize : (g.withScope outer).scopes.all.size = g.scopes.all.size + 1 := Array.size_push _
  have hbefore : g.Beyond g.scopes.all.size g' := (Graph.Beyond.withScope le_rfl outer).trans h
  have hparent : (g'.scopes.get g.scopes.all.size).parent = some outer := by
    rw [h.parent _ (hsize ▸ Nat.lt_succ_self _), Graph.withScope, Scopes.get_addChild, if_pos rfl]
    rfl
  have hancestors : ∀ i < g.scopes.all.size,
      g'.scopes.ancestors i = g.scopes.ancestors i := fun i hi =>
    Scopes.ancestors_congr fun j hj => hbefore.scope j (hj.trans_lt hi)
  have hvar : ∀ i < g.scopes.all.size, ∀ name,
      g'.scopes.findVar? i name = g.scopes.findVar? i name := fun i hi name => by
    rw [Scopes.findVar?, Scopes.findVar?, hancestors i hi]
  have hrule : ∀ i < g.scopes.all.size, ∀ name,
      g'.scopes.findRule? i name = g.scopes.findRule? i name := fun i hi name => by
    rw [Scopes.findRule?, Scopes.findRule?, hancestors i hi]
  refine ⟨hsize.symm.trans_le h.size_le, ?_⟩
  refine ⟨hbefore.scope, hbefore.rule, hvar, hrule, fun _ name hname => ?_, fun _ name hname => ?_⟩
  · rw [Scopes.findVar?_of_parent hparent houter hname, hvar outer houter]
  · rw [Scopes.findRule?_of_parent hparent houter hname, hrule outer houter]

/-- The scope of a file is created after its path has been read. -/
theorem includeTarget_cases (file : SourceFile) (s : Loader) :
    match includeTarget file true s with
    | .ok target t =>
      target.2 = s.graph.scopes.all.size ∧ t.graph = s.graph.withScope file.scope
    | .error _ t => t.graph = s.graph := by
  cases hread : reading file pathLine s with
  | error e t =>
    have hgraph : t.graph = s.graph := by
      unfold reading at hread
      split at hread
      · cases hread
      · cases hread
        rfl
    rw [includeTarget, bind_of_error _ hread]
    exact hgraph
  | ok written t =>
    have hgraph := (reading_eq_ok hread).2
    rw [includeTarget, bind_of_ok _ hread, ← hgraph]
    have hpath : inspect (fun g => g.scopes.eval file.scope written.template) t =
        .ok (t.graph.scopes.eval file.scope written.template) t := rfl
    rw [bind_of_ok _ hpath]
    by_cases hempty : t.graph.scopes.eval file.scope written.template = ""
    · rw [if_pos hempty]
      exact rfl
    · rw [if_neg hempty]
      exact ⟨rfl, rfl⟩

/-- What a file does that `subninja` reads, and the files that are read within it, stays in the
scope that the file gets and in scopes inside of that one. This is so for the statement as a whole
and after any number of statements of any such file, whether they succeed or fail. -/
theorem subninja_encloses (files : FileView) (depth : Nat) (file : SourceFile) (s : Loader)
    (hscope : file.scope < s.graph.scopes.all.size) :
    (match includeStatement (loadFile files depth) file true s with
      | .ok _ t => s.graph.scopes.all.size < t.graph.scopes.all.size ∧
        Encloses file.scope s.graph t.graph
      | .error _ t => Encloses file.scope s.graph t.graph) ∧
    ∀ path text n,
      match statements (loadFile files depth) ⟨path, s.graph.scopes.all.size⟩ n
          ⟨s.graph.withScope file.scope, .start text⟩ with
      | .ok _ t | .error _ t => s.graph.scopes.all.size < t.graph.scopes.all.size ∧
        Encloses file.scope s.graph t.graph := by
  have hkeeps := keepsBeyond_loadFile files depth
  have hbound : s.graph.scopes.all.size ≤ (s.graph.withScope file.scope).scopes.all.size :=
    (Graph.Beyond.withScope le_rfl file.scope).size_le
  constructor
  · rw [includeStatement_eq]
    have htarget := includeTarget_cases file s
    cases hrun : includeTarget file true s with
    | error e t =>
      rw [hrun] at htarget
      rw [bind_of_error _ hrun]
      exact htarget ▸ Encloses.refl ..
    | ok target t =>
      rw [hrun] at htarget
      obtain ⟨hnew, hgraph⟩ := htarget
      have hkept := hkeeps.readInto (Nat.le_of_eq hnew.symm) target.1
      rw [bind_of_ok _ hrun]
      cases hread : readInto (loadFile files depth) target t with
      | ok _ u =>
        have hbeyond : Spared _ t u := hkept.ok hread
        rw [Spared, hgraph] at hbeyond
        exact encloses_of_withScope hscope (hbeyond hbound)
      | error e u =>
        have hbeyond : Spared _ t u := hkept.error hread
        rw [Spared, hgraph] at hbeyond
        exact (encloses_of_withScope hscope (hbeyond hbound)).2
  · intro path text n
    have hkept : StaysBeyond s.graph.scopes.all.size
        (statements (loadFile files depth) ⟨path, s.graph.scopes.all.size⟩ n) :=
      hkeeps.statements le_rfl n
    split
    · next hrun => exact encloses_of_withScope hscope (hkept.ok hrun hbound)
    · next hrun => exact encloses_of_withScope hscope (hkept.error hrun hbound)

/-- A file that binds a variable and declares a rule. -/
def enclosedFiles : FileView where
  stat _ := .ok none
  read path :=
    if path = "inner.ninja" then
      .ok (Utf8.encode "flags = -g\nrule cc\n  command = cc $flags\n".toList)
    else .error .missing

/-- What is declared in the file is found in its scope and not around it. -/
theorem subninja_encloses_inner : ∃ t,
    includeStatement (loadFile enclosedFiles 1) ⟨"build.ninja", Scopes.root⟩ true
        ⟨.initial, .start "inner.ninja\n".toList⟩ = .ok () t ∧
      Encloses Scopes.root .initial t.graph ∧
      t.graph.scopes.findVar? 1 "flags" = some (.literal "-g") ∧
      t.graph.scopes.findVar? Scopes.root "flags" = none ∧
      t.graph.scopes.findRule? 1 "cc" = some 0 ∧
      t.graph.scopes.findRule? Scopes.root "cc" = none := by
  have hencloses := (subninja_encloses enclosedFiles 1 ⟨"build.ninja", Scopes.root⟩
    ⟨.initial, .start "inner.ninja\n".toList⟩ (by decide)).1
  have hruns : (match includeStatement (loadFile enclosedFiles 1) ⟨"build.ninja", Scopes.root⟩ true
        ⟨.initial, .start "inner.ninja\n".toList⟩ with
      | .ok _ t => decide (t.graph.scopes.findVar? 1 "flags" = some (.literal "-g")) &&
          decide (t.graph.scopes.findRule? 1 "cc" = some 0)
      | .error _ _ => false) = true := by cbv
  cases hrun : includeStatement (loadFile enclosedFiles 1) ⟨"build.ninja", Scopes.root⟩ true
      ⟨.initial, .start "inner.ninja\n".toList⟩ with
  | ok _ t =>
    rw [hrun] at hruns hencloses
    obtain ⟨hvar, hrule⟩ := Bool.and_eq_true_iff.mp hruns
    have hinner := hencloses.2
    have hnoVar : Graph.initial.scopes.findVar? Scopes.root "flags" = none := by cbv
    have hnoRule : Graph.initial.scopes.findRule? Scopes.root "cc" = none := by cbv
    exact ⟨t, rfl, hinner, of_decide_eq_true hvar,
      (hinner.findVar? _ (by decide) _).trans hnoVar, of_decide_eq_true hrule,
      (hinner.findRule? _ (by decide) _).trans hnoRule⟩
  | error e t =>
    rw [hrun] at hruns
    cases hruns

end Manifest

end Rebuild
