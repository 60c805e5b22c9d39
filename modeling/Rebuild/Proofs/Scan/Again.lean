import Rebuild.Proofs.Echo
import Rebuild.Proofs.Scan.Visit

/-!
# Scanning again

Where no edge has a dependency file, a scan goes the same way through a graph whatever files and the
log say: what is looked at next depends on the graph alone. So a scan that succeeds succeeds again
on other files, provided that these can be looked at, and it meets the same validations.
-/

namespace Rebuild.Scan

/-- Two scans of one graph have come equally far. -/
structure Abreast (g : Graph) (s s' : Scan) : Prop where
  graph : s.graph = g
  graph' : s'.graph = g
  visit : ∀ e, s'.visitOf e = s.visitOf e
  statted : ∀ n, (s'.survey.node n).isStatted = (s.survey.node n).isStatted
  validations : s'.validations = s.validations
  lt : ∀ n ∈ s.validations, n < g.nodes.size

/-- Steps with related results that keep scans abreast. -/
abbrev InStep {α : Type} (g : Graph) (first second : Scanning α) (V : α → α → Prop) : Prop :=
  Echoes (fun _ => 0) (Abreast g) first second V fun _ => Abreast g

variable {g : Graph} {src src' : Sources} {files files' : FileView} {s s' : Scan}

namespace Abreast

theorem start (g : Graph) : Abreast g (.start g default) (.start g default) :=
  ⟨rfl, rfl, fun _ => rfl, fun _ => rfl, rfl, by simp [Scan.start]⟩

/-- What is known otherwise of edges and files does not matter. -/
theorem survey (h : Abreast g s s') {known known' : Survey}
    (hvisit : ∀ e, (known'.edge e).visit = (known.edge e).visit)
    (hstatted : ∀ n, (known'.node n).isStatted = (known.node n).isStatted) :
    Abreast g { s with survey := known } { s' with survey := known' } :=
  ⟨h.graph, h.graph', hvisit, hstatted, h.validations, h.lt⟩

theorem modifyEdge (h : Abreast g s s') (id : EdgeId) {f : EdgeState → EdgeState}
    (hf : ∀ e e' : EdgeState, e'.visit = e.visit → (f e').visit = (f e).visit) :
    Abreast g { s with survey := s.survey.modifyEdge id f }
      { s' with survey := s'.survey.modifyEdge id f } := by
  refine h.survey (fun e => ?_) h.statted
  rw [Survey.edge_modifyEdge, Survey.edge_modifyEdge]
  split
  · exact hf _ _ (h.visit id)
  · exact h.visit e

theorem modifyNode (h : Abreast g s s') (id : NodeId) {f f' : NodeState → NodeState}
    (hf : ∀ n n' : NodeState, n'.isStatted = n.isStatted → (f' n').isStatted = (f n).isStatted) :
    Abreast g { s with survey := s.survey.modifyNode id f }
      { s' with survey := s'.survey.modifyNode id f' } := by
  refine h.survey h.visit fun n => ?_
  rw [Survey.node_modifyNode, Survey.node_modifyNode]
  split
  · exact hf _ _ (h.statted id)
  · exact h.statted n

/-- An edge is held back in one scan or the other. -/
theorem held (h : Abreast g s s') (id : EdgeId) (input : NodeId) :
    Abreast g (held id input s) (held id input s') := by
  have hkept : ∀ (survey : Survey) (e : EdgeId),
      ((survey.modifyEdge id ({ · with outputReady := false })).edge e).visit =
        (survey.edge e).visit := by
    intro survey e
    rw [Survey.edge_modifyEdge]
    split
    · next heq => rw [heq]
    · rfl
  unfold Scan.held
  split <;> split
  · exact h
  · exact h.survey (fun e => (hkept _ e).trans (h.visit e)) h.statted
  · exact h.survey (fun e => (h.visit e).trans (hkept _ e).symm) h.statted
  · exact h.survey (fun e => (hkept _ e).trans ((h.visit e).trans (hkept _ e).symm)) h.statted

end Abreast

/-- Files of a graph that could be looked at can be looked at. -/
def Accessible (g : Graph) (files files' : FileView) : Prop :=
  ∀ n < g.nodes.size, ∀ mtime, files.stat (g.node n).path = .ok mtime →
    ∃ mtime', files'.stat (g.node n).path = .ok mtime'

theorem inStep_modify {f f' : Scan → Scan}
    (h : ∀ s s', Abreast g s s' → Abreast g (f s) (f' s')) :
    InStep g (modify f) (modify f') Eq := by
  rintro s s' hs _ _ ⟨⟩
  exact ⟨Nat.le_refl _, (), f' s', rfl, rfl, h s s' hs⟩

/-! ## Looking at files -/

section Files

variable (hfiles : Accessible g files files')
include hfiles

theorem inStep_statOnce {n : NodeId} (hn : n < g.nodes.size) :
    InStep g (statOnce files n) (statOnce files' n) Eq := by
  refine .get fun s s' h => .ite (by rw [h.statted]) (.pure rfl fun _ _ => id) ?_
  rw [h.graph, h.graph']
  dsimp only
  cases hstat : files.stat (g.node n).path with
  | error fault => exact .throw _ _
  | ok mtime =>
    obtain ⟨mtime', hstat'⟩ := hfiles n hn mtime hstat
    rw [hstat']
    refine .bind (inStep_modify fun _ _ h => h.modifyNode n fun m m' _ => ?_) fun _ _ _ =>
      .pure rfl fun _ _ => id
    rw [NodeState.isStatted_withStat, NodeState.isStatted_withStat]

theorem inStep_statAll {ids : List NodeId} (hids : ∀ n ∈ ids, n < g.nodes.size) :
    InStep g (statAll files ids) (statAll files' ids) Eq := by
  induction ids with
  | nil => exact .pure rfl fun _ _ => id
  | cons n ids ih =>
    exact .bind (inStep_statOnce hfiles (hids n List.mem_cons_self)) fun _ _ _ =>
      ih fun m hm => hids m (List.mem_cons_of_mem n hm)

theorem inStep_scanLeaf {n : NodeId} (hn : n < g.nodes.size) :
    InStep g (scanLeaf files n) (scanLeaf files' n) Eq := by
  refine .bind (inStep_statOnce hfiles hn) fun looked looked' heq => .ite (by rw [heq]) ?_ ?_
  · exact inStep_modify fun _ _ h => h.modifyNode n fun _ _ => id
  · exact .pure rfl fun _ _ => id

end Files

/-! ## Edges -/

/-- Without a dependency file there is nothing to load. -/
theorem inStep_loadDepsOnce {id : EdgeId} (hid : g.edgeVar id "depfile" = "") :
    InStep g (loadDepsOnce files id) (loadDepsOnce files' id) Eq := by
  have hload : ∀ (files : FileView) (s : Scan), s.graph = g → ∃ known : Survey,
      loadDepsOnce files id s = .ok () { s with survey := known } ∧
      (∀ e, (known.edge e).visit = (s.survey.edge e).visit) ∧ known.nodes = s.survey.nodes := by
    intro files s hgraph
    unfold loadDepsOnce
    rw [Sequence.get_bind]
    split
    · exact ⟨s.survey, rfl, fun _ => rfl, rfl⟩
    · have hnone (survey : Survey) : loadDeps files id { s with survey := survey } =
          .ok () { s with survey := survey } := by
        rw [loadDeps, Depfile.load_eq, hgraph, if_pos hid]
      refine ⟨s.survey.modifyEdge id ({ · with depsLoaded := true }), ?_, fun e => ?_, rfl⟩
      · refine Eq.trans (Sequence.bind_of_ok _ (a := ()) rfl) ?_
        dsimp only
        rw [hnone]
      · rw [Survey.edge_modifyEdge]
        split
        · next heq => rw [heq]
        · rfl
  rintro s s' h ⟨⟩ t hrun
  obtain ⟨known, hrun₁, hvisit, hnodes⟩ := hload files s h.graph
  obtain ⟨known', hrun₂, hvisit', hnodes'⟩ := hload files' s' h.graph'
  cases hrun₁.symm.trans hrun
  refine ⟨Nat.le_refl _, (), _, hrun₂, rfl, h.survey (fun e => ?_) fun n => ?_⟩
  · exact (hvisit' e).trans ((h.visit e).trans (hvisit e).symm)
  · rw [Survey.node, Survey.node, hnodes, hnodes']
    exact h.statted n

theorem inStep_scanInputs {visit visit' : NodeId → Scanning Unit} {id : EdgeId}
    {inputs : List (NodeId × Bool)}
    (hvisit : ∀ p ∈ inputs, InStep g (visit p.1) (visit' p.1) Eq)
    (sum sum' : InputSummary) :
    InStep g (scanInputs visit id inputs sum) (scanInputs visit' id inputs sum')
      fun _ _ => True := by
  induction inputs generalizing sum sum' with
  | nil => exact .pure trivial fun _ _ h => h
  | cons p inputs ih =>
    obtain ⟨input, orderOnly⟩ := p
    intro s s' h _ t hrun
    obtain ⟨_, u, hfirst, -⟩ := Sequence.bind_eq_ok.mp hrun
    rw [scanInputs_cons input orderOnly inputs sum hfirst] at hrun
    obtain ⟨-, _, u', hfirst', -, hu⟩ := hvisit _ List.mem_cons_self h hfirst
    rw [scanInputs_cons input orderOnly inputs sum' hfirst']
    exact ih (fun q hq => hvisit q (List.mem_cons_of_mem _ hq)) _ _ (hu.held id input) hrun

/-- Whatever the inputs come to, there is an answer. -/
private theorem judge_total (log : BuildLog) (id : EdgeId) (sum : InputSummary) (s : Scan) :
    ∃ dirty t, judge log id sum s = .ok dirty t := by
  unfold judge
  split
  · exact ⟨_, _, rfl⟩
  · rw [Sequence.get_bind]
    dsimp only
    split
    · split <;> exact ⟨_, _, rfl⟩
    · exact ⟨_, _, rfl⟩

theorem inStep_judge (log log' : BuildLog) (id : EdgeId) (sum sum' : InputSummary) :
    InStep g (judge log id sum) (judge log' id sum') fun _ _ => True := by
  have hkept : ∀ {log sum} {s t : Scan} {dirty}, judge log id sum s = .ok dirty t →
      t.graph = s.graph ∧ t.validations = s.validations ∧ (∀ e, t.visitOf e = s.visitOf e) ∧
        ∀ n, (t.survey.node n).isStatted = (s.survey.node n).isStatted := by
    intro log sum s t dirty h
    obtain ⟨-, hgraph, hedges, hvalidations, hnode⟩ := judge_ok h
    refine ⟨hgraph, hvalidations, fun e => ?_, fun n => ?_⟩
    · exact congrArg (fun edges => (Table.get edges e).visit) hedges
    · rw [hnode]
      split <;> rfl
  intro s s' h _ t hrun
  obtain ⟨dirty', t', hrun'⟩ := judge_total log' id sum' s'
  obtain ⟨hgraph, hvalidations, hvisit, hstatted⟩ := hkept hrun
  obtain ⟨hgraph', hvalidations', hvisit', hstatted'⟩ := hkept hrun'
  refine ⟨Nat.le_refl _, dirty', t', hrun', trivial, hgraph.trans h.graph, hgraph'.trans h.graph',
    fun e => ?_, fun n => ?_, ?_, hvalidations ▸ h.lt⟩
  · rw [hvisit, hvisit', h.visit]
  · rw [hstatted, hstatted', h.statted]
  · rw [hvalidations, hvalidations', h.validations]

theorem inStep_conclude (id : EdgeId) (dirty dirty' : Bool) :
    InStep g (conclude id dirty) (conclude id dirty') Eq := by
  rintro s s' h ⟨⟩ t hrun
  have hrun' : conclude id dirty' s' = .ok () _ := rfl
  obtain ⟨hgraph, hvalidations, hnode, hedge⟩ := conclude_ok hrun
  obtain ⟨hgraph', hvalidations', hnode', hedge'⟩ := conclude_ok hrun'
  refine ⟨Nat.le_refl _, (), _, hrun', rfl, hgraph.trans h.graph, hgraph'.trans h.graph',
    fun e => ?_, fun n => ?_, ?_, hvalidations ▸ h.lt⟩
  · rw [visitOf, visitOf, hedge, hedge']
    split
    · rfl
    · exact h.visit e
  · rw [hnode, hnode', apply_ite NodeState.isStatted, apply_ite NodeState.isStatted, h.graph,
      h.graph']
    exact if_congr .rfl (h.statted n) (h.statted n)
  · rw [hvalidations, hvalidations', h.validations]

section Walks

variable (hg : g.Linked) (hdepfile : ∀ e < g.edges.size, g.edgeVar e "depfile" = "")
  (hfiles : Accessible g src.files src'.files)
include hg hdepfile hfiles

theorem inStep_scanEdge {visit visit' : NodeId → Scanning Unit} {id : EdgeId}
    (hid : id < g.edges.size) (hvisit : ∀ n < g.nodes.size, InStep g (visit n) (visit' n) Eq) :
    InStep g (scanEdge src visit id) (scanEdge src' visit' id) Eq := by
  have houts : ∀ n ∈ (g.edge id).outs, n < g.nodes.size := fun n hn =>
    Graph.lt_of_producer ((hg.producer_iff n id).mpr hn)
  refine .bind (inStep_modify fun _ _ h => h.modifyEdge id fun _ _ _ => rfl) fun _ _ _ =>
    .get fun s s' h => ?_
  rw [h.graph, h.graph']
  refine .bind (inStep_statAll hfiles houts) fun _ _ _ =>
    .bind (inStep_loadDepsOnce (hdepfile id hid)) fun _ _ _ => .get fun s s' h => ?_
  rw [h.graph, h.graph']
  refine .bind (inStep_scanInputs (fun p hp => hvisit p.1 (hg.lt_of_in (mem_inputs hp))) _ _)
    fun _ _ _ => .bind (inStep_modify fun s s' h => ?_) fun _ _ _ =>
      .bind (inStep_judge _ _ id _ _) fun _ _ _ => inStep_conclude id _ _
  refine ⟨h.graph, h.graph', h.visit, h.statted, ?_, fun n hn => ?_⟩
  · show s'.validations ++ _ = s.validations ++ _
    rw [h.validations]
  · rcases List.mem_append.mp hn with hn | hn
    · exact h.lt n hn
    · exact hg.lt_of_validation hn

omit hdepfile in
private theorem inStep_visit_of {depth : Nat} {stack : List NodeId} {n : NodeId}
    (hn : n < g.nodes.size) (hedge : ∀ d, ∀ id < g.edges.size, depth = d + 1 →
      InStep g (scanEdge src (visit src d (n :: stack)) id)
        (scanEdge src' (visit src' d (n :: stack)) id) Eq) :
    InStep g (visit src depth stack n) (visit src' depth stack n) Eq := by
  rw [visit.eq_def, visit.eq_def]
  dsimp only
  refine .get fun s s' h => ?_
  rw [h.graph, h.graph']
  cases hp : (g.node n).producer with
  | none => exact inStep_scanLeaf hfiles hn
  | some id =>
    dsimp only
    rw [show (s'.survey.edge id).visit = (s.survey.edge id).visit from h.visit id]
    cases (s.survey.edge id).visit with
    | done => exact .pure rfl fun _ _ h => h
    | inProgress => exact .throw _ _
    | unvisited =>
      cases depth with
      | zero => exact .pure rfl fun _ _ h => h
      | succ d => exact hedge d id (hg.edge_lt_of_out hp) rfl

theorem inStep_visit (depth : Nat) (stack : List NodeId) {n : NodeId} (hn : n < g.nodes.size) :
    InStep g (visit src depth stack n) (visit src' depth stack n) Eq := by
  induction depth generalizing stack n with
  | zero => exact inStep_visit_of hg hfiles hn nofun
  | succ depth ih =>
    refine inStep_visit_of hg hfiles hn fun d id hid hd => ?_
    cases hd
    exact inStep_scanEdge hg hdepfile hfiles hid fun m hm => ih (n :: stack) hm

theorem inStep_target {n : NodeId} (hn : n < g.nodes.size) :
    InStep g (target src n) (target src' n) Eq :=
  .get fun s s' h => by
    rw [h.graph, h.graph']
    exact inStep_visit hg hdepfile hfiles _ _ hn

theorem inStep_targets {nodes : List NodeId} (hnodes : ∀ n ∈ nodes, n < g.nodes.size) :
    InStep g (targets src nodes) (targets src' nodes) Eq := by
  induction nodes with
  | nil => exact .pure rfl fun _ _ => id
  | cons n nodes ih =>
    exact .bind (inStep_target hg hdepfile hfiles (hnodes n List.mem_cons_self)) fun _ _ _ =>
      ih fun m hm => hnodes m (List.mem_cons_of_mem n hm)

omit hg hdepfile hfiles in
/-- The validation that is taken is a node of the graph. -/
theorem inStep_popValidation : InStep g popValidation popValidation
    fun node node' => node = node' ∧ ∀ n, node = some n → n < g.nodes.size := by
  intro s s' h node t hrun
  unfold popValidation at hrun ⊢
  rw [h.validations]
  cases hlast : s.validations.getLast? with
  | none =>
    rw [hlast] at hrun
    cases hrun
    exact ⟨Nat.le_refl _, none, s', rfl, ⟨rfl, nofun⟩, h⟩
  | some n =>
    rw [hlast] at hrun
    cases hrun
    refine ⟨Nat.le_refl _, some n, _, rfl, ⟨rfl, ?_⟩, h.graph, h.graph', h.visit, h.statted, rfl,
      fun m hm => h.lt m (List.mem_of_mem_dropLast hm)⟩
    rintro _ ⟨⟩
    exact h.lt n (List.mem_of_getLast? hlast)

theorem inStep_validate (known : List NodeId) (n : Nat) {found : List NodeId}
    (hfound : ∀ m ∈ found, m < g.nodes.size) :
    InStep g (validate src known n found) (validate src' known n found)
      fun more more' => more = more' ∧ ∀ m ∈ more, m < g.nodes.size := by
  induction n generalizing found with
  | zero => exact .pure ⟨rfl, hfound⟩ fun _ _ h => h
  | succ n ih =>
    refine .bind inStep_popValidation ?_
    rintro node _ ⟨rfl, hlt⟩
    cases node with
    | none => exact .pure ⟨rfl, hfound⟩ fun _ _ h => h
    | some node =>
      refine .ite .rfl (ih hfound) (.bind (inStep_target hg hdepfile hfiles (hlt node rfl))
        fun _ _ _ => ih fun m hm => ?_)
      rcases List.mem_append.mp hm with hm | hm
      · exact hfound m hm
      · exact List.mem_singleton.mp hm ▸ hlt node rfl

variable (src') in
/-- A scan that succeeds succeeds again, whatever files and the log say, and meets the same
validations, which are nodes of the graph. It adds nothing to the graph. -/
theorem all_again {nodes validations : List NodeId} {found : Scan}
    (hnodes : ∀ n ∈ nodes, n < g.nodes.size)
    (h : all src nodes (.start g default) = .ok validations found) :
    ∃ found', all src' nodes (.start g default) = .ok validations found' ∧
      (∀ n ∈ validations, n < g.nodes.size) ∧ found.graph = g ∧ found'.graph = g := by
  have hall : InStep g (all src nodes) (all src' nodes)
      fun more more' => more = more' ∧ ∀ m ∈ more, m < g.nodes.size :=
    .bind (inStep_targets hg hdepfile hfiles hnodes) fun _ _ _ => .get fun s s' h => by
      rw [h.validations, h.graph, h.graph']
      exact inStep_validate hg hdepfile hfiles _ _ (by simp)
  obtain ⟨-, _, found', hagain, ⟨rfl, hlt⟩, hend⟩ := hall (.start g) h
  exact ⟨found', hagain, hlt, hend.graph, hend.graph'⟩

end Walks

end Rebuild.Scan
