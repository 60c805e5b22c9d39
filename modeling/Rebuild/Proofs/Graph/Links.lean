import Mathlib.Data.Finset.Card
import Mathlib.Data.Finset.Range
import Mathlib.Data.List.Count
import Mathlib.Logic.Function.Iterate
import Rebuild.Graph

/-!
# Links between nodes and edges

A graph is linked when its nodes and edges tell the same story: a node's producer is the edge that
has it as an output, an edge stands among a node's consumers as often as the node stands among its
inputs, and no two nodes have one path. Every operation that builds a graph keeps it linked.
-/

namespace Rebuild.Graph

/-! ## Views -/

theorem node_modifyNode (g : Graph) (m n : Nat) (f : Node → Node) :
    (g.modifyNode m f).node n = if m = n ∧ n < g.nodes.size then f (g.node n) else g.node n := by
  simp only [node, modifyNode, Array.getD_eq_getD_getElem?, Array.getElem?_modify]
  by_cases hn : n < g.nodes.size <;> by_cases h : m = n <;> simp [h, hn]

@[simp] theorem edge_modifyNode (g : Graph) (n : NodeId) (f : Node → Node) (e : EdgeId) :
    (g.modifyNode n f).edge e = g.edge e := rfl

@[simp] theorem size_nodes_modifyNode (g : Graph) (n : NodeId) (f : Node → Node) :
    (g.modifyNode n f).nodes.size = g.nodes.size := by simp [modifyNode]

@[simp] theorem edges_modifyNode (g : Graph) (n : NodeId) (f : Node → Node) :
    (g.modifyNode n f).edges = g.edges := rfl

theorem edge_modifyEdge (g : Graph) (d e : Nat) (f : Edge → Edge) :
    (g.modifyEdge d f).edge e = if d = e ∧ e < g.edges.size then f (g.edge e) else g.edge e := by
  simp only [edge, modifyEdge, Array.getD_eq_getD_getElem?, Array.getElem?_modify]
  by_cases he : e < g.edges.size <;> by_cases h : d = e <;> simp [h, he]

@[simp] theorem node_modifyEdge (g : Graph) (e : EdgeId) (f : Edge → Edge) (n : NodeId) :
    (g.modifyEdge e f).node n = g.node n := rfl

@[simp] theorem nodes_modifyEdge (g : Graph) (e : EdgeId) (f : Edge → Edge) :
    (g.modifyEdge e f).nodes = g.nodes := rfl

@[simp] theorem size_edges_modifyEdge (g : Graph) (e : EdgeId) (f : Edge → Edge) :
    (g.modifyEdge e f).edges.size = g.edges.size := by simp [modifyEdge]

theorem node_of_size_le {g : Graph} {n : Nat} (h : g.nodes.size ≤ n) : g.node n = default := by
  simp [node, Array.getD_eq_getD_getElem?, h]

theorem edge_of_size_le {g : Graph} {e : Nat} (h : g.edges.size ≤ e) : g.edge e = default := by
  simp [edge, Array.getD_eq_getD_getElem?, h]

theorem lt_of_producer {g : Graph} {n : Nat} {e : EdgeId} (h : (g.node n).producer = some e) :
    n < g.nodes.size := by
  by_contra hlt
  rw [node_of_size_le (Nat.le_of_not_lt hlt)] at h
  cases h

/-- Pushing a node changes what is read at its own index only. -/
theorem node_push (g : Graph) (node : Node) (n : Nat) :
    ({ g with nodes := g.nodes.push node } : Graph).node n =
      if n = g.nodes.size then node else g.node n := by
  simp only [Graph.node, Array.getD_eq_getD_getElem?, Array.getElem?_push]
  split <;> simp

/-- Pushing an edge changes what is read at its own index only. -/
theorem edge_push (g : Graph) (edge : Edge) (e : Nat) :
    ({ g with edges := g.edges.push edge } : Graph).edge e =
      if e = g.edges.size then edge else g.edge e := by
  simp only [Graph.edge, Array.getD_eq_getD_getElem?, Array.getElem?_push]
  split <;> simp

theorem edge_addImplicitIn (g : Graph) {id : EdgeId} (input : NodeId) (hid : id < g.edges.size)
    (e : EdgeId) : (g.addImplicitIn id input).edge e =
      if id = e then { g.edge e with implicitIns := (g.edge e).implicitIns ++ [input] }
      else g.edge e := by
  rw [addImplicitIn, linkConsumer, edge_modifyNode, edge_modifyEdge]
  by_cases he : id = e
  · subst he; simp [hid]
  · simp [he]

theorem node_addImplicitIn (g : Graph) (id : EdgeId) {input : NodeId}
    (hinput : input < g.nodes.size) (n : NodeId) : (g.addImplicitIn id input).node n =
      if input = n then { g.node n with consumers := (g.node n).consumers ++ [id] }
      else g.node n := by
  rw [addImplicitIn, linkConsumer, node_modifyNode]
  by_cases hn : input = n
  · subst hn; simp [hinput]
  · simp [hn]

/-- Changing nodes one after the other changes each as often as it is named. -/
theorem node_foldl_modifyNode (f : Node → Node) (ids : List NodeId) (g : Graph) (n : Nat) :
    (ids.foldl (fun g m => g.modifyNode m f) g).node n =
      if n < g.nodes.size then f^[ids.count n] (g.node n) else g.node n := by
  induction ids generalizing g with
  | nil => simp
  | cons m ids ih =>
    rw [List.foldl_cons, ih, node_modifyNode, size_nodes_modifyNode]
    by_cases hn : n < g.nodes.size <;> by_cases hm : m = n <;> simp [hn, hm]

theorem edges_foldl_modifyNode (f : Node → Node) (ids : List NodeId) (g : Graph) :
    (ids.foldl (fun g m => g.modifyNode m f) g).edges = g.edges ∧
      (ids.foldl (fun g m => g.modifyNode m f) g).nodes.size = g.nodes.size := by
  induction ids generalizing g with
  | nil => simp
  | cons m ids ih =>
    obtain ⟨hedges, hsize⟩ := ih (g.modifyNode m f)
    exact ⟨hedges, hsize.trans (size_nodes_modifyNode g m f)⟩

@[simp] theorem default_node_producer : (default : Node).producer = none := rfl

@[simp] theorem default_node_consumers : (default : Node).consumers = [] := rfl

@[simp] theorem default_node_validates : (default : Node).validates = [] := rfl

@[simp] theorem default_edge_outs : (default : Edge).outs = [] := rfl

@[simp] theorem default_edge_ins : (default : Edge).ins = [] := rfl

@[simp] theorem default_edge_validations : (default : Edge).validations = [] := rfl

/-! ## Nodes by path -/

/-- A path stands for the first node that has it. -/
theorem findNode?_eq_some_iff {g : Graph} {path : String} {n : Nat} :
    g.findNode? path = some n ↔ n < g.nodes.size ∧ (g.node n).path = path ∧
      ∀ m < n, (g.node m).path ≠ path := by
  have hnode : ∀ m (hm : m < g.nodes.size), g.node m = g.nodes[m] := fun m hm => by
    simp [node, Array.getD_eq_getD_getElem?, hm]
  rw [findNode?, Array.findIdx?_eq_some_iff_getElem]
  refine ⟨fun ⟨hn, hpath, hfirst⟩ => ⟨hn, ?_, fun m hm => ?_⟩, fun ⟨hn, hpath, hfirst⟩ =>
    ⟨hn, ?_, fun m hm => ?_⟩⟩
  · rw [hnode n hn]; exact of_decide_eq_true hpath
  · rw [hnode m (Nat.lt_trans hm hn)]; simpa using hfirst m hm
  · rw [hnode n hn] at hpath; exact decide_eq_true hpath
  · have hne := hfirst m hm
    rw [hnode m (Nat.lt_trans hm hn)] at hne
    simpa using hne

theorem findNode?_eq_some {g : Graph} {path : String} {n : NodeId} (h : g.findNode? path = some n) :
    n < g.nodes.size ∧ (g.node n).path = path :=
  have ⟨hn, hpath, _⟩ := findNode?_eq_some_iff.mp h
  ⟨hn, hpath⟩

theorem findNode?_eq_none {g : Graph} {path : String} (h : g.findNode? path = none) {n : NodeId}
    (hn : n < g.nodes.size) : (g.node n).path ≠ path := by
  have hall := Array.findIdx?_eq_none_iff.mp h g.nodes[n] (Array.getElem_mem hn)
  simpa [node, Array.getD_eq_getD_getElem?, hn] using hall

/-! ## Linked graphs -/

/-- Nodes and edges agree about who makes and who uses what. -/
structure Linked (g : Graph) : Prop where
  producer_iff : ∀ n e, (g.node n).producer = some e ↔ n ∈ (g.edge e).outs
  consumers_count : ∀ n e, (g.node n).consumers.count e = (g.edge e).ins.count n
  validates_count : ∀ n e, (g.node n).validates.count e = (g.edge e).validations.count n
  paths_inj : ∀ m n : Nat, m < g.nodes.size → n < g.nodes.size →
    (g.node m).path = (g.node n).path → m = n

namespace Linked

variable {g : Graph}

theorem mem_consumers_iff (h : g.Linked) {n : NodeId} {e : EdgeId} :
    e ∈ (g.node n).consumers ↔ n ∈ (g.edge e).ins := by
  rw [← List.count_pos_iff, ← List.count_pos_iff, h.consumers_count]

theorem lt_of_in (h : g.Linked) {n e : Nat} (hn : n ∈ (g.edge e).ins) : n < g.nodes.size := by
  by_contra hlt
  have hmem := h.mem_consumers_iff.mpr hn
  rw [node_of_size_le (Nat.le_of_not_lt hlt)] at hmem
  simp at hmem

theorem lt_of_validation (h : g.Linked) {n e : Nat} (hn : n ∈ (g.edge e).validations) :
    n < g.nodes.size := by
  by_contra hlt
  have hcount := h.validates_count n e
  rw [node_of_size_le (Nat.le_of_not_lt hlt)] at hcount
  exact absurd (List.count_pos_iff.mpr hn) (by rw [← hcount]; exact Nat.lt_irrefl 0)

theorem edge_lt_of_out (h : g.Linked) {n : NodeId} {e : EdgeId}
    (hp : (g.node n).producer = some e) : e < g.edges.size := by
  by_contra hlt
  have hmem := (h.producer_iff n e).mp hp
  rw [edge_of_size_le (Nat.le_of_not_lt hlt)] at hmem
  simp at hmem

/-- Only one edge makes a file. -/
theorem out_unique (h : g.Linked) {n : NodeId} {d e : EdgeId} (hd : n ∈ (g.edge d).outs)
    (he : n ∈ (g.edge e).outs) : d = e :=
  Option.some.inj (((h.producer_iff n d).mpr hd).symm.trans ((h.producer_iff n e).mpr he))

theorem initial : Graph.initial.Linked where
  producer_iff n e := by simp [Graph.initial, node, edge]
  consumers_count n e := by simp [Graph.initial, node, edge]
  validates_count n e := by simp [Graph.initial, node, edge]
  paths_inj m n hm := by simp [Graph.initial] at hm

/-- Links depend on nodes and edges only. -/
theorem congr {g' : Graph} (h : g.Linked) (hnodes : g'.nodes = g.nodes)
    (hedges : g'.edges = g.edges) : g'.Linked := by
  obtain ⟨scopes, nodes, edges, rules, pools, defaults⟩ := g'
  cases hnodes
  cases hedges
  exact ⟨h.producer_iff, h.consumers_count, h.validates_count, h.paths_inj⟩

/-- Changing what is not a link of a node keeps a graph linked. -/
theorem modifyNode (h : g.Linked) (n : NodeId) {f : Node → Node}
    (hpath : ∀ node, (f node).path = node.path)
    (hprod : ∀ node, (f node).producer = node.producer)
    (hcons : ∀ node, (f node).consumers = node.consumers)
    (hval : ∀ node, (f node).validates = node.validates) : (g.modifyNode n f).Linked where
  producer_iff m e := by
    rw [edge_modifyNode, ← h.producer_iff, node_modifyNode]
    split <;> simp [hprod]
  consumers_count m e := by
    rw [edge_modifyNode, ← h.consumers_count, node_modifyNode]
    split <;> simp [hcons]
  validates_count m e := by
    rw [edge_modifyNode, ← h.validates_count, node_modifyNode]
    split <;> simp [hval]
  paths_inj a b ha hb heq := by
    rw [size_nodes_modifyNode] at ha hb
    apply h.paths_inj a b ha hb
    rw [node_modifyNode, node_modifyNode] at heq
    split at heq <;> split at heq <;> simpa [hpath] using heq

/-- Changing what is not a link of an edge keeps a graph linked. -/
theorem modifyEdge (h : g.Linked) (id : EdgeId) {f : Edge → Edge}
    (houts : ∀ edge, (f edge).outs = edge.outs) (hins : ∀ edge, (f edge).ins = edge.ins)
    (hvals : ∀ edge, (f edge).validations = edge.validations) : (g.modifyEdge id f).Linked where
  producer_iff n e := by
    rw [node_modifyEdge, h.producer_iff, edge_modifyEdge]
    split <;> simp [houts]
  consumers_count n e := by
    rw [node_modifyEdge, h.consumers_count, edge_modifyEdge]
    split <;> simp [hins]
  validates_count n e := by
    rw [node_modifyEdge, h.validates_count, edge_modifyEdge]
    split <;> simp [hvals]
  paths_inj := h.paths_inj

theorem findNode?_eq_some_iff (h : g.Linked) {path : String} {n : NodeId} :
    g.findNode? path = some n ↔ n < g.nodes.size ∧ (g.node n).path = path := by
  refine ⟨findNode?_eq_some, fun ⟨hn, hpath⟩ => ?_⟩
  cases hfind : g.findNode? path with
  | none => exact absurd hpath (findNode?_eq_none hfind hn)
  | some m =>
    obtain ⟨hm, hpathm⟩ := findNode?_eq_some hfind
    rw [h.paths_inj m n hm hn (hpathm.trans hpath.symm)]

/-- A new node under a new path has no links, and neither had its index before. -/
theorem push (h : g.Linked) {path : String} (hpath : ∀ n < g.nodes.size, (g.node n).path ≠ path) :
    ({ g with nodes := g.nodes.push (.ofPath path) } : Graph).Linked := by
  have hnew : g.node g.nodes.size = default := node_of_size_le (Nat.le_refl _)
  have hedge : ∀ e, ({ g with nodes := g.nodes.push (.ofPath path) } : Graph).edge e = g.edge e :=
    fun _ => rfl
  refine ⟨fun n e => ?_, fun n e => ?_, fun n e => ?_, fun m n hm hn heq => ?_⟩
  · rw [node_push, hedge, ← h.producer_iff]
    split
    · subst n; rw [hnew]; rfl
    · rfl
  · rw [node_push, hedge, ← h.consumers_count]
    split
    · subst n; rw [hnew]; rfl
    · rfl
  · rw [node_push, hedge, ← h.validates_count]
    split
    · subst n; rw [hnew]; rfl
    · rfl
  · rw [node_push, node_push] at heq
    simp only [Array.size_push] at hm hn
    split at heq <;> split at heq
    · omega
    · exact absurd heq.symm (hpath n (by omega))
    · exact absurd heq (hpath m (by omega))
    · exact h.paths_inj m n (by omega) (by omega) heq

theorem ensureNode (h : g.Linked) (path : String) : (g.ensureNode path).2.Linked := by
  unfold Graph.ensureNode
  cases hfind : g.findNode? path with
  | some n => exact h
  | none => exact h.push fun n hn => findNode?_eq_none hfind hn

/-- An edge of the graph gets a node of the graph as one more implicit input. -/
theorem addImplicitIn (h : g.Linked) {id : EdgeId} {input : NodeId} (hid : id < g.edges.size)
    (hinput : input < g.nodes.size) : (g.addImplicitIn id input).Linked where
  producer_iff n e := by
    rw [node_addImplicitIn g id hinput, edge_addImplicitIn g input hid]
    have hprod := h.producer_iff n e
    split <;> split <;> exact hprod
  consumers_count n e := by
    have hcount := h.consumers_count n e
    rw [node_addImplicitIn g id hinput, edge_addImplicitIn g input hid]
    simp only [Edge.ins, Edge.nonOrderOnlyIns] at hcount ⊢
    by_cases he : id = e
    · subst he
      by_cases hn : input = n
      · subst hn; simp [hcount]; omega
      · simp [hn, hcount]
    · simp only [he, ↓reduceIte]
      split
      · simp [he, hcount]
      · exact hcount
  validates_count n e := by
    rw [node_addImplicitIn g id hinput, edge_addImplicitIn g input hid]
    have hval := h.validates_count n e
    split <;> split <;> exact hval
  paths_inj a b ha hb heq := by
    have hsize : (g.addImplicitIn id input).nodes.size = g.nodes.size := by
      simp [Graph.addImplicitIn, linkConsumer]
    rw [hsize] at ha hb
    refine h.paths_inj a b ha hb ?_
    rw [node_addImplicitIn g id hinput, node_addImplicitIn g id hinput] at heq
    split at heq <;> split at heq <;> simpa using heq

end Linked

/-! ## Checking links -/

/-- What has to be looked at to see that a graph is linked. -/
theorem linked_iff (g : Graph) : g.Linked ↔
    (∀ n < g.nodes.size, (∀ e ∈ (g.node n).producer, e < g.edges.size) ∧
      ∀ e ∈ (g.node n).consumers ++ (g.node n).validates, e < g.edges.size) ∧
    (∀ e < g.edges.size, ∀ n ∈ (g.edge e).outs ++ (g.edge e).ins ++ (g.edge e).validations,
      n < g.nodes.size) ∧
    (∀ n < g.nodes.size, ∀ e < g.edges.size,
      ((g.node n).producer = some e ↔ n ∈ (g.edge e).outs) ∧
      (g.node n).consumers.count e = (g.edge e).ins.count n ∧
      (g.node n).validates.count e = (g.edge e).validations.count n) ∧
    ∀ m < g.nodes.size, ∀ n < g.nodes.size, (g.node m).path = (g.node n).path → m = n := by
  have hcount : ∀ {k : Nat} {l : List Nat} {i : Nat}, (∀ j ∈ l, j < k) → k ≤ i → l.count i = 0 :=
    fun hl hi => List.count_eq_zero.mpr fun hmem => absurd (hl _ hmem) (Nat.not_lt.mpr hi)
  constructor
  · intro h
    refine ⟨fun n _ => ⟨fun e he => h.edge_lt_of_out he, fun e he => ?_⟩, fun e _ n hn => ?_,
      fun n _ e _ => ⟨h.producer_iff n e, h.consumers_count n e, h.validates_count n e⟩,
      fun m hm n hn => h.paths_inj m n hm hn⟩
    · by_contra hlt
      have hedge := edge_of_size_le (Nat.le_of_not_lt hlt)
      rcases List.mem_append.mp he with he | he
      · have := h.mem_consumers_iff.mp he
        simp [hedge] at this
      · have := List.count_pos_iff.mpr he
        simp [h.validates_count, hedge] at this
    · by_contra hlt
      have hnode := node_of_size_le (Nat.le_of_not_lt hlt)
      rcases List.mem_append.mp hn with hn | hn
      · rcases List.mem_append.mp hn with hn | hn
        · have := (h.producer_iff n e).mpr hn
          simp [hnode] at this
        · have := h.mem_consumers_iff.mpr hn
          simp [hnode] at this
      · have := List.count_pos_iff.mpr hn
        simp [← h.validates_count, hnode] at this
  · rintro ⟨hnodes, hedges, hlinks, hpaths⟩
    refine ⟨fun n e => ?_, fun n e => ?_, fun n e => ?_, fun m n hm hn => hpaths m hm n hn⟩
    all_goals
      by_cases hn : n < g.nodes.size <;> by_cases he : e < g.edges.size
    · exact (hlinks n hn e he).1
    · rw [edge_of_size_le (Nat.le_of_not_lt he)]
      simpa using fun hp => he ((hnodes n hn).1 e hp)
    · rw [node_of_size_le (Nat.le_of_not_lt hn)]
      simpa using fun hp => hn (hedges e he n (by simp [hp]))
    · rw [node_of_size_le (Nat.le_of_not_lt hn), edge_of_size_le (Nat.le_of_not_lt he)]
      simp
    · exact (hlinks n hn e he).2.1
    · rw [edge_of_size_le (Nat.le_of_not_lt he)]
      exact hcount (fun d hd => (hnodes n hn).2 d (by simp [hd])) (Nat.le_of_not_lt he)
    · rw [node_of_size_le (Nat.le_of_not_lt hn)]
      exact (hcount (fun m hm => hedges e he m (by simp [hm])) (Nat.le_of_not_lt hn)).symm
    · rw [node_of_size_le (Nat.le_of_not_lt hn), edge_of_size_le (Nat.le_of_not_lt he)]
      simp
    · exact (hlinks n hn e he).2.2
    · rw [edge_of_size_le (Nat.le_of_not_lt he)]
      exact hcount (fun d hd => (hnodes n hn).2 d (by simp [hd])) (Nat.le_of_not_lt he)
    · rw [node_of_size_le (Nat.le_of_not_lt hn)]
      exact (hcount (fun m hm => hedges e he m (by simp [hm])) (Nat.le_of_not_lt hn)).symm
    · rw [node_of_size_le (Nat.le_of_not_lt hn), edge_of_size_le (Nat.le_of_not_lt he)]
      simp

instance (g : Graph) : Decidable g.Linked :=
  decidable_of_iff _ (linked_iff g).symm

/-! ## Adding edges -/

private theorem iterate_producer (id : EdgeId) (k : ℕ) (n : Node) :
    ({ · with producer := some id })^[k] n =
      { n with producer := if k = 0 then n.producer else some id } := by
  induction k generalizing n with
  | zero => rfl
  | succ k ih => rw [Function.iterate_succ_apply, ih]; simp

private theorem iterate_consumers (id : EdgeId) (k : ℕ) (n : Node) :
    (fun n : Node => { n with consumers := n.consumers ++ [id] })^[k] n =
      { n with consumers := n.consumers ++ List.replicate k id } := by
  induction k generalizing n with
  | zero => simp
  | succ k ih => rw [Function.iterate_succ_apply, ih]; simp [List.replicate_succ]

private theorem iterate_validates (id : EdgeId) (k : ℕ) (n : Node) :
    (fun n : Node => { n with validates := n.validates ++ [id] })^[k] n =
      { n with validates := n.validates ++ List.replicate k id } := by
  induction k generalizing n with
  | zero => simp
  | succ k ih => rw [Function.iterate_succ_apply, ih]; simp [List.replicate_succ]

variable {g g' : Graph} {edge : Edge} {id : EdgeId}

/-- Adding an edge that is refused changes nothing, so only its success has to be described. -/
theorem addEdge_ok (hadd : g.addEdge edge = .ok (id, g')) :
    id = g.edges.size ∧ (∀ n ∈ edge.outs, (g.node n).producer = none) ∧
      g'.edges = g.edges.push edge ∧ g'.nodes.size = g.nodes.size ∧
      ∀ n : Nat, g'.node n = if n < g.nodes.size then
        { g.node n with
          producer := if edge.outs.count n = 0 then (g.node n).producer else some id
          consumers := (g.node n).consumers ++ List.replicate (edge.ins.count n) id
          validates := (g.node n).validates ++ List.replicate (edge.validations.count n) id }
        else g.node n := by
  unfold addEdge at hadd
  split at hadd
  · cases hadd
  · next hfind =>
    obtain ⟨rfl, rfl⟩ := Prod.mk.inj (Except.ok.inj hadd)
    have hlink : linkConsumer g.edges.size = fun (g' : Graph) m => g'.modifyNode m fun n =>
        { n with consumers := n.consumers ++ [g.edges.size] } := rfl
    refine ⟨rfl, ?_, ?_, ?_, ?_⟩
    · simpa [List.find?_eq_none] using hfind
    · simp only [hlink, edges_foldl_modifyNode]
    · simp only [hlink, edges_foldl_modifyNode]
    · intro n
      change (List.foldl _ _ _ : Graph).node n = _
      simp only [hlink, node_foldl_modifyNode, edges_foldl_modifyNode, iterate_producer,
        iterate_consumers, iterate_validates]
      split <;> rfl

/-- Adding an edge between nodes of the graph keeps it linked. -/
theorem Linked.addEdge (h : g.Linked) (hadd : g.addEdge edge = .ok (id, g'))
    (houts : ∀ n ∈ edge.outs, n < g.nodes.size) (hins : ∀ n ∈ edge.ins, n < g.nodes.size)
    (hvals : ∀ n ∈ edge.validations, n < g.nodes.size) : g'.Linked := by
  obtain ⟨rfl, hfree, hedges, hsize, hnode⟩ := addEdge_ok hadd
  have hedge : ∀ e, g'.edge e = if e = g.edges.size then edge else g.edge e := by
    intro e
    rw [← edge_push]
    exact congrArg (fun edges => edges.getD e default) hedges
  have hold : g.edge g.edges.size = default := edge_of_size_le (Nat.le_refl _)
  have hcount : ∀ (ids : List NodeId) (n : Nat), (∀ m ∈ ids, m < g.nodes.size) →
      ¬ n < g.nodes.size → ids.count n = 0 :=
    fun ids n hids hn => List.count_eq_zero.mpr fun hmem => hn (hids n hmem)
  refine ⟨fun n e => ?_, fun n e => ?_, fun n e => ?_, fun m n hm hn heq => ?_⟩
  · have hprod := h.producer_iff n e
    have hmem : edge.outs.count n = 0 ↔ n ∉ edge.outs := List.count_eq_zero
    rw [hnode, hedge]
    by_cases he : e = g.edges.size
    · subst he
      simp only [hold, default_edge_outs, List.not_mem_nil, iff_false] at hprod
      by_cases hn : n < g.nodes.size <;> by_cases hout : n ∈ edge.outs
      · simp [hn, hout, hmem]
      · simp [hn, hout, hmem, hprod]
      · exact absurd (houts n hout) hn
      · simp [hn, hout, hprod]
    · rw [if_neg he, ← hprod]
      by_cases hn : n < g.nodes.size <;> by_cases hout : n ∈ edge.outs
      · simp [hn, hout, hmem, hfree n hout, Ne.symm he]
      · simp [hn, hout, hmem]
      · simp [hn]
      · simp [hn]
  · have hcons := h.consumers_count n e
    rw [hnode, hedge]
    by_cases he : e = g.edges.size
    · subst he
      by_cases hn : n < g.nodes.size
      · simp [hn, hcons, hold]
      · simp [hn, hcons, hold, hcount _ _ hins hn]
    · rw [if_neg he, ← hcons]
      by_cases hn : n < g.nodes.size <;> simp [hn, List.count_replicate, Ne.symm he]
  · have hval := h.validates_count n e
    rw [hnode, hedge]
    by_cases he : e = g.edges.size
    · subst he
      by_cases hn : n < g.nodes.size
      · simp [hn, hval, hold]
      · simp [hn, hval, hold, hcount _ _ hvals hn]
    · rw [if_neg he, ← hval]
      by_cases hn : n < g.nodes.size <;> simp [hn, List.count_replicate, Ne.symm he]
  · rw [hsize] at hm hn
    simp only [hnode, hm, hn, ↓reduceIte] at heq
    exact h.paths_inj m n hm hn heq

/-! ## Counting edges -/

/-- How many edges of a graph have a property. -/
def countEdges (g : Graph) (p : EdgeId → Prop) [DecidablePred p] : Nat :=
  ((Finset.range g.edges.size).filter p).card

section countEdges

variable {p q : EdgeId → Prop} [DecidablePred p] [DecidablePred q]

theorem countEdges_le_size (g : Graph) (p : EdgeId → Prop) [DecidablePred p] :
    g.countEdges p ≤ g.edges.size := by
  have hle := Finset.card_filter_le (Finset.range g.edges.size) p
  rwa [Finset.card_range] at hle

theorem countEdges_pos {e : Nat} (he : e < g.edges.size) (hp : p e) : 0 < g.countEdges p := by
  refine Finset.card_pos.mpr ⟨e, ?_⟩
  rw [Finset.mem_filter, Finset.mem_range]
  exact ⟨he, hp⟩

theorem countEdges_mono (hsize : g'.edges.size = g.edges.size) (h : ∀ e, p e → q e) :
    g'.countEdges p ≤ g.countEdges q := by
  rw [countEdges, hsize]
  exact Finset.card_le_card fun e he => by
    rw [Finset.mem_filter] at he ⊢
    exact ⟨he.1, h e he.2⟩

theorem countEdges_lt (hsize : g'.edges.size = g.edges.size) (h : ∀ e, p e → q e) {e : Nat}
    (he : e < g.edges.size) (hp : ¬p e) (hq : q e) : g'.countEdges p < g.countEdges q := by
  rw [countEdges, hsize]
  refine Finset.card_lt_card (Finset.ssubset_iff_of_subset ?_ |>.mpr ⟨e, ?_, ?_⟩)
  · intro d hd
    rw [Finset.mem_filter] at hd ⊢
    exact ⟨hd.1, h d hd.2⟩
  · rw [Finset.mem_filter, Finset.mem_range]
    exact ⟨he, hq⟩
  · rw [Finset.mem_filter]
    exact fun hmem => hp hmem.2

/-- One more edge has the property. -/
theorem countEdges_succ {e : Nat} (he : e < g.edges.size) (hp : ¬p e)
    (h : ∀ d, q d ↔ p d ∨ d = e) : g.countEdges q = g.countEdges p + 1 := by
  have heq : (Finset.range g.edges.size).filter q =
      insert e ((Finset.range g.edges.size).filter p) := by
    ext d
    simp only [Finset.mem_filter, Finset.mem_range, Finset.mem_insert, h]
    constructor
    · rintro ⟨hd, hpd | rfl⟩
      · exact .inr ⟨hd, hpd⟩
      · exact .inl rfl
    · rintro (rfl | ⟨hd, hpd⟩)
      · exact ⟨he, .inr rfl⟩
      · exact ⟨hd, .inl hpd⟩
  rw [countEdges, heq, Finset.card_insert_of_notMem, countEdges]
  exact fun hmem => hp (Finset.mem_filter.mp hmem).2

theorem countEdges_congr (h : ∀ d, q d ↔ p d) : g.countEdges q = g.countEdges p := by
  unfold countEdges
  congr 1
  exact Finset.filter_congr fun d _ => h d

/-- A list without repetitions of the edges that have the property. -/
theorem countEdges_eq_length {edges : List EdgeId} (hnodup : edges.Nodup)
    (hmem : ∀ e : Nat, e ∈ edges ↔ e < g.edges.size ∧ p e) : g.countEdges p = edges.length := by
  rw [countEdges, ← List.toFinset_card_of_nodup hnodup]
  congr 1
  ext e
  rw [Finset.mem_filter, Finset.mem_range, List.mem_toFinset]
  exact (hmem e).symm

end countEdges

end Rebuild.Graph
