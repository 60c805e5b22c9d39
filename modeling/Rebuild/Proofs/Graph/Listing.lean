import Rebuild.Proofs.Graph.Links

/-!
# Nodes that are listed for paths

Looking up the node of a path adds at most that node, which nothing makes. So paths can be looked up
one after the other: the nodes that were found keep their paths, and none of them gets a producer.
-/

namespace Rebuild.Graph

/-- A graph with more files, which nothing makes. -/
def Gains (g g' : Graph) : Prop :=
  ∃ added : Array Node, (∀ node ∈ added, node.producer = none) ∧
    g' = { g with nodes := g.nodes ++ added }

/-- Nodes of the graph, in the order of their paths. -/
structure Lists (g : Graph) (nodes : List NodeId) (paths : List String) : Prop where
  lt : ∀ n ∈ nodes, n < g.nodes.size
  paths : g.paths nodes = paths

variable {g g' g'' : Graph} {nodes : List NodeId} {paths : List String}

namespace Gains

theorem refl (g : Graph) : g.Gains g := ⟨#[], by simp, by simp⟩

theorem trans (h : g.Gains g') (h' : g'.Gains g'') : g.Gains g'' := by
  obtain ⟨added, hadded, rfl⟩ := h
  obtain ⟨more, hmore, rfl⟩ := h'
  refine ⟨added ++ more, fun node hnode => ?_, by simp⟩
  exact (Array.mem_append.mp hnode).elim (hadded node) (hmore node)

theorem ensureNode (g : Graph) (path : String) : g.Gains (g.ensureNode path).2 := by
  unfold Graph.ensureNode
  split
  · exact .refl g
  · exact ⟨#[.ofPath path], by simp [Node.ofPath], by simp⟩

theorem size_le (h : g.Gains g') : g.nodes.size ≤ g'.nodes.size := by
  obtain ⟨added, -, rfl⟩ := h
  simp

theorem node (h : g.Gains g') {n : Nat} (hn : n < g.nodes.size) : g'.node n = g.node n := by
  obtain ⟨added, -, rfl⟩ := h
  simp [Graph.node, Array.getD_eq_getD_getElem?, Array.getElem?_append, hn]

theorem producer (h : g.Gains g') (n : NodeId) : (g'.node n).producer = (g.node n).producer := by
  obtain ⟨added, hadded, rfl⟩ := h
  by_cases hn : n < g.nodes.size
  · simp [Graph.node, Array.getD_eq_getD_getElem?, Array.getElem?_append, hn]
  rw [node_of_size_le (Nat.le_of_not_lt hn)]
  simp only [Graph.node, Array.getD_eq_getD_getElem?, Array.getElem?_append, hn, if_false]
  cases hnode : added[n - g.nodes.size]? with
  | none => rfl
  | some node => exact hadded node (Array.mem_of_getElem? hnode)

end Gains

theorem Lists.gains (h : g.Lists nodes paths) (hg : g.Gains g') : g'.Lists nodes paths where
  lt n hn := Nat.lt_of_lt_of_le (h.lt n hn) hg.size_le
  paths := by
    rw [← h.paths]
    exact List.map_congr_left fun n hn => congrArg Node.path (hg.node (h.lt n hn))

theorem lists_ensureNode (g : Graph) (path : String) :
    (g.ensureNode path).2.Lists [(g.ensureNode path).1] [path] := by
  unfold ensureNode
  cases hfind : g.findNode? path with
  | some n =>
    obtain ⟨hn, hpath⟩ := findNode?_eq_some hfind
    exact ⟨by simpa using hn, by simpa [Graph.paths] using hpath⟩
  | none =>
    refine ⟨by simp, ?_⟩
    simp only [Graph.paths, List.map_cons, List.map_nil, node_push, if_true, Node.ofPath]

theorem Lists.append {nodes' : List NodeId} {paths' : List String} (h : g.Lists nodes paths)
    (h' : g.Lists nodes' paths') : g.Lists (nodes ++ nodes') (paths ++ paths') where
  lt n hn := (List.mem_append.mp hn).elim (h.lt n) (h'.lt n)
  paths := by rw [← h.paths, ← h'.paths, Graph.paths, List.map_append]; rfl

/-! ## Adding an edge -/

theorem foldl_modifyNode_eq (f : Node → Node) (ids : List NodeId) (g : Graph) :
    ∃ nodes, ids.foldl (fun g m => g.modifyNode m f) g = { g with nodes := nodes } := by
  induction ids generalizing g with
  | nil => exact ⟨g.nodes, rfl⟩
  | cons m ids ih =>
    obtain ⟨nodes, hnodes⟩ := ih (g.modifyNode m f)
    exact ⟨nodes, hnodes⟩

/-- An edge is accepted if none of its outputs has a producer. Apart from the edge and its links,
the graph stays the same. -/
theorem exists_addEdge {edge : Edge} (h : ∀ n ∈ edge.outs, (g.node n).producer = none) :
    ∃ nodes, g.addEdge edge =
      .ok (g.edges.size, { g with nodes := nodes, edges := g.edges.push edge }) := by
  have hfind : (edge.outs.find? fun out => (g.node out).producer.isSome) = none := by
    simpa [List.find?_eq_none] using h
  unfold addEdge
  rw [hfind]
  dsimp only
  obtain ⟨nodes₁, h₁⟩ := foldl_modifyNode_eq ({ · with producer := some g.edges.size }) edge.outs g
  rw [h₁]
  obtain ⟨nodes₂, h₂⟩ := foldl_modifyNode_eq (fun n => { n with
    consumers := n.consumers ++ [g.edges.size] }) edge.ins { g with nodes := nodes₁ }
  rw [show linkConsumer g.edges.size = fun (g' : Graph) m => g'.modifyNode m fun n =>
    { n with consumers := n.consumers ++ [g.edges.size] } from rfl, h₂]
  obtain ⟨nodes₃, h₃⟩ := foldl_modifyNode_eq (fun n => { n with
    validates := n.validates ++ [g.edges.size] }) edge.validations { g with nodes := nodes₂ }
  rw [h₃]
  exact ⟨nodes₃, rfl⟩

/-- Nodes keep their paths when an edge is linked to them. -/
theorem Lists.addEdge {edge : Edge} {id : EdgeId} (h : g.Lists nodes paths)
    (hadd : g.addEdge edge = .ok (id, g')) : g'.Lists nodes paths := by
  obtain ⟨-, -, -, hsize, hnode⟩ := addEdge_ok hadd
  refine ⟨hsize.symm ▸ h.lt, ?_⟩
  rw [← h.paths]
  refine List.map_congr_left fun n _ => ?_
  rw [hnode]
  split <;> rfl

end Rebuild.Graph
