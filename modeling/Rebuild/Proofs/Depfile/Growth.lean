import Rebuild.Depfile.Load
import Rebuild.Proofs.Graph.Links

/-!
# What loading a dependency file does to a graph

Loading only ever adds: new nodes, which nothing makes, and new implicit inputs of the one edge. An
input is added only if the edge does not have it in any segment, so a dependency that was an
order-only input before is one afterwards. `Inserts` says all that adding inputs changes, `TakesIn`
what it has to do with the dependencies; both hold of any graph, also if its links do not agree.
-/

namespace Rebuild

/-- A graph that has become another one by additions that a dependency file can make. -/
structure Graph.Grows (g g' : Graph) : Prop where
  scopes : g'.scopes = g.scopes
  rules : g'.rules = g.rules
  pools : g'.pools = g.pools
  edges_size : g'.edges.size = g.edges.size
  nodes_size : g.nodes.size ≤ g'.nodes.size
  path : ∀ n : Nat, n < g.nodes.size → (g'.node n).path = (g.node n).path
  producer : ∀ n, (g'.node n).producer = (g.node n).producer
  edge : ∀ e, ∃ more, (∀ n ∈ more, n ∉ (g.edge e).ins) ∧
    g'.edge e = { g.edge e with implicitIns := (g.edge e).implicitIns ++ more }

theorem Graph.mem_paths {g : Graph} {ids : List NodeId} {path : String} :
    path ∈ g.paths ids ↔ ∃ n ∈ ids, (g.node n).path = path :=
  List.mem_map

theorem Graph.paths_append (g : Graph) (l r : List NodeId) :
    g.paths (l ++ r) = g.paths l ++ g.paths r :=
  List.map_append

namespace Graph.Grows

variable {g g' g'' : Graph}

theorem refl (g : Graph) : g.Grows g :=
  ⟨rfl, rfl, rfl, rfl, Nat.le_refl _, fun _ _ => rfl, fun _ => rfl, fun e => ⟨[], by simp⟩⟩

theorem ins_subset (h : g.Grows g') (e : EdgeId) : (g.edge e).ins ⊆ (g'.edge e).ins := by
  obtain ⟨more, -, hmore⟩ := h.edge e
  rw [hmore]
  intro n hn
  simp only [Edge.ins, Edge.nonOrderOnlyIns, List.mem_append] at hn ⊢
  tauto

theorem trans (h : g.Grows g') (h' : g'.Grows g'') : g.Grows g'' where
  scopes := h'.scopes.trans h.scopes
  rules := h'.rules.trans h.rules
  pools := h'.pools.trans h.pools
  edges_size := h'.edges_size.trans h.edges_size
  nodes_size := Nat.le_trans h.nodes_size h'.nodes_size
  path n hn := (h'.path n (Nat.lt_of_lt_of_le hn h.nodes_size)).trans (h.path n hn)
  producer n := (h'.producer n).trans (h.producer n)
  edge e := by
    obtain ⟨more, hnew, hmore⟩ := h.edge e
    obtain ⟨more', hnew', hmore'⟩ := h'.edge e
    refine ⟨more ++ more', fun n hn hin => ?_, by rw [hmore', hmore]; simp⟩
    rcases List.mem_append.mp hn with hn | hn
    · exact hnew n hn hin
    · exact hnew' n hn (h.ins_subset e hin)

theorem outs (h : g.Grows g') (e : EdgeId) : (g'.edge e).outs = (g.edge e).outs := by
  obtain ⟨more, -, hmore⟩ := h.edge e
  rw [hmore]; rfl

theorem isPhony (h : g.Grows g') (e : EdgeId) : (g'.edge e).isPhony = (g.edge e).isPhony := by
  obtain ⟨more, -, hmore⟩ := h.edge e
  rw [hmore]; rfl

theorem validations (h : g.Grows g') (e : EdgeId) :
    (g'.edge e).validations = (g.edge e).validations := by
  obtain ⟨more, -, hmore⟩ := h.edge e
  rw [hmore]

/-- An input counts as one that is not order-only unless it was an order-only input and no other
before. -/
theorem mem_nonOrderOnlyIns_iff (h : g.Grows g') {n : NodeId} {e : EdgeId}
    (hn : n ∈ (g'.edge e).ins) : n ∈ (g'.edge e).nonOrderOnlyIns ↔
      n ∈ (g.edge e).nonOrderOnlyIns ∨ n ∉ (g.edge e).orderOnlyIns := by
  obtain ⟨more, hmore, hedge⟩ := h.edge e
  have hfresh : n ∈ more → n ∉ (g.edge e).orderOnlyIns := fun hm ho =>
    hmore n hm (by simp [Edge.ins, ho])
  rw [hedge] at hn ⊢
  simp only [Edge.ins, Edge.nonOrderOnlyIns, List.mem_append] at hn ⊢
  tauto

/-- The inputs that an edge had keep their paths. -/
theorem paths_ins (h : g.Grows g') (hg : g.Linked) (e : EdgeId) :
    g'.paths (g.edge e).ins = g.paths (g.edge e).ins :=
  List.map_congr_left fun _ hn => h.path _ (hg.lt_of_in hn)

/-- The outputs of an edge keep their paths. -/
theorem paths_outs (h : g.Grows g') (hg : g.Linked) (e : EdgeId) :
    g'.paths (g'.edge e).outs = g.paths (g.edge e).outs := by
  rw [h.outs]
  refine List.map_congr_left fun n hn => h.path n ?_
  exact lt_of_producer ((hg.producer_iff n e).mpr hn)

/-- Paths keep their nodes: the first node with a path is still the first one. -/
theorem findNode? (h : g.Grows g') {path : String} {n : NodeId}
    (hfind : g.findNode? path = some n) : g'.findNode? path = some n := by
  rw [findNode?_eq_some_iff] at hfind ⊢
  obtain ⟨hn, hpath, hfirst⟩ := hfind
  refine ⟨Nat.lt_of_lt_of_le hn h.nodes_size, (h.path n hn).trans hpath, fun m hm => ?_⟩
  rw [h.path m (Nat.lt_trans hm hn)]
  exact hfirst m hm

/-- What an edge sees of its variables does not depend on its inputs. -/
theorem edgeVar (h : g.Grows g') (e : EdgeId) (name : String) :
    g'.edgeVar e name = g.edgeVar e name := by
  obtain ⟨more, -, hmore⟩ := h.edge e
  have henv : g'.environment e = g.environment e := by
    simp only [environment, rule, hmore, h.scopes, h.rules]
  simp only [Graph.edgeVar, henv]

theorem edgeFlag (h : g.Grows g') (e : EdgeId) (name : String) :
    g'.edgeFlag e name = g.edgeFlag e name := by
  simp only [Graph.edgeFlag, h.edgeVar]

theorem command (h : g.Grows g') (e : EdgeId) : g'.command e = g.command e := by
  obtain ⟨more, -, hmore⟩ := h.edge e
  simp only [Graph.command, hmore, h.edgeVar]

end Graph.Grows

namespace Edge

/-- The edge with more implicit inputs, after those it has. -/
def insert (e : Edge) (added : List NodeId) : Edge :=
  { e with implicitIns := e.implicitIns ++ added }

theorem insert_nil (e : Edge) : e.insert [] = e := by
  simp [insert]

theorem insert_insert (e : Edge) (added more : List NodeId) :
    (e.insert added).insert more = e.insert (added ++ more) := by
  simp [insert]

theorem ins_insert (e : Edge) (added : List NodeId) :
    (e.insert added).ins = e.nonOrderOnlyIns ++ added ++ e.orderOnlyIns := by
  simp [insert, ins, nonOrderOnlyIns]

theorem mem_ins_insert {e : Edge} {added : List NodeId} {n : NodeId} :
    n ∈ (e.insert added).ins ↔ n ∈ e.ins ∨ n ∈ added := by
  rw [ins_insert, ins]
  simp only [List.mem_append]
  tauto

theorem count_ins_insert (e : Edge) (added : List NodeId) (n : NodeId) :
    (e.insert added).ins.count n = e.ins.count n + added.count n := by
  rw [ins_insert, ins]
  simp only [List.count_append]
  omega

end Edge

namespace Depfile

variable {id : EdgeId} {g g' g'' : Graph} {added more : List NodeId}

/-! ## New inputs of one edge -/

/-- An edge of a graph has got more inputs: none that it had, and each once. Each of them is linked
back once more, nodes were created and marked for paths that no node had, and nothing else has
changed. -/
structure Inserts (id : EdgeId) (added : List NodeId) (g g' : Graph) : Prop
    extends g.Grows g' where
  edge_eq : g'.edge id = (g.edge id).insert added
  others : ∀ e, e ≠ id → g'.edge e = g.edge e
  defaults : g'.defaults = g.defaults
  nodup : added.Nodup
  fresh : ∀ n ∈ added, n ∉ (g.edge id).ins
  lt_size : ∀ n ∈ added, n < g'.nodes.size
  consumers : ∀ n, (g'.node n).consumers =
    (g.node n).consumers ++ if n ∈ added then [id] else []
  validates : ∀ n, (g'.node n).validates = (g.node n).validates
  marked : ∀ n : Nat, (g'.node n).fromDepfile ↔
    (g.node n).fromDepfile ∨ g.nodes.size ≤ n ∧ n < g'.nodes.size
  absent : ∀ n : Nat, g.nodes.size ≤ n → n < g'.nodes.size →
    ∀ m : Nat, m < n → (g'.node m).path ≠ (g'.node n).path

namespace Inserts

theorem refl (id : EdgeId) (g : Graph) : Inserts id [] g g where
  toGrows := .refl g
  edge_eq := (Edge.insert_nil _).symm
  others _ _ := rfl
  defaults := rfl
  nodup := .nil
  fresh := by simp
  lt_size := by simp
  consumers n := by simp
  validates _ := rfl
  marked n := (or_iff_left fun ⟨hle, hlt⟩ => absurd hlt (Nat.not_lt.mpr hle)).symm
  absent n hle hlt := absurd hlt (Nat.not_lt.mpr hle)

theorem mem_ins_iff (h : Inserts id added g g') {n : NodeId} :
    n ∈ (g'.edge id).ins ↔ n ∈ (g.edge id).ins ∨ n ∈ added := by
  rw [h.edge_eq, Edge.mem_ins_insert]

theorem trans (h : Inserts id added g g') (h' : Inserts id more g' g'') :
    Inserts id (added ++ more) g g'' where
  toGrows := h.toGrows.trans h'.toGrows
  edge_eq := by rw [h'.edge_eq, h.edge_eq, Edge.insert_insert]
  others e he := (h'.others e he).trans (h.others e he)
  defaults := h'.defaults.trans h.defaults
  nodup := by
    refine List.nodup_append'.mpr ⟨h.nodup, h'.nodup, fun n hn hmore => ?_⟩
    exact h'.fresh n hmore (h.mem_ins_iff.mpr (.inr hn))
  fresh n hn := by
    rcases List.mem_append.mp hn with hn | hn
    · exact h.fresh n hn
    · exact fun hin => h'.fresh n hn (h.mem_ins_iff.mpr (.inl hin))
  lt_size n hn := by
    rcases List.mem_append.mp hn with hn | hn
    · exact Nat.lt_of_lt_of_le (h.lt_size n hn) h'.nodes_size
    · exact h'.lt_size n hn
  consumers n := by
    have hdisjoint : n ∈ added → n ∉ more := fun hn hmore =>
      h'.fresh n hmore (h.mem_ins_iff.mpr (.inr hn))
    rw [h'.consumers, h.consumers]
    by_cases hn : n ∈ added
    · simp [hn, hdisjoint hn]
    · simp [hn]
  validates n := (h'.validates n).trans (h.validates n)
  marked n := by
    have hle := h.nodes_size
    have hle' := h'.nodes_size
    rw [h'.marked, h.marked, or_assoc]
    exact or_congr_right (by omega)
  absent n hle hlt m hm := by
    by_cases hn : n < g'.nodes.size
    · rw [h'.path n hn, h'.path m (Nat.lt_trans hm hn)]
      exact h.absent n hle hn m hm
    · exact h'.absent n (Nat.le_of_not_lt hn) hlt m hm

/-- Paths of new nodes are new. -/
theorem findNode?_eq_none (h : Inserts id added g g') {n : Nat} (hle : g.nodes.size ≤ n)
    (hlt : n < g'.nodes.size) : g.findNode? (g'.node n).path = none := by
  cases hfind : g.findNode? (g'.node n).path with
  | none => rfl
  | some m =>
    obtain ⟨hm, hpath⟩ := Graph.findNode?_eq_some hfind
    exact absurd ((h.path m hm).trans hpath) (h.absent n hle hlt m (Nat.lt_of_lt_of_le hm hle))

/-- New inputs that are linked back keep the links of a graph. -/
theorem linked (h : Inserts id added g g') (hg : g.Linked) : g'.Linked where
  producer_iff n e := by rw [h.producer, h.outs, hg.producer_iff]
  consumers_count n e := by
    rw [h.consumers, List.count_append, hg.consumers_count]
    by_cases he : e = id
    · subst he
      rw [h.edge_eq, Edge.count_ins_insert, h.nodup.count]
      split <;> simp
    · rw [h.others e he]
      split <;> simp [Ne.symm he]
  validates_count n e := by rw [h.validates, h.validations, hg.validates_count]
  paths_inj m n hm hn hpath := by
    -- the later one of two nodes is either an old one or has a path of its own
    wlog hlt : m < n generalizing m n
    · rcases Nat.lt_or_eq_of_le (Nat.le_of_not_lt hlt) with hgt | heq
      · exact (this n m hn hm hpath.symm hgt).symm
      · exact heq.symm
    by_cases hold : n < g.nodes.size
    · have hmold := Nat.lt_trans hlt hold
      rw [h.path m hmold, h.path n hold] at hpath
      exact hg.paths_inj m n hmold hold hpath
    · exact absurd hpath (h.absent n (Nat.le_of_not_lt hold) hn m hlt)

end Inserts

/-- A path of the graph that is an input of an edge. -/
def HasInput (g : Graph) (id : EdgeId) (path : String) : Prop :=
  ∃ n, g.findNode? path = some n ∧ n ∈ (g.edge id).ins

theorem HasInput.grows {path : String} (h : HasInput g id path) (hgrows : g.Grows g') :
    HasInput g' id path := by
  obtain ⟨n, hfind, hn⟩ := h
  exact ⟨n, hgrows.findNode? hfind, hgrows.ins_subset id hn⟩

/-- An edge has taken in dependencies: those that were no inputs before are new ones, in order, and
nodes were created for them only. -/
structure TakesIn (id : EdgeId) (deps : List String) (added : List NodeId) (g g' : Graph) : Prop
    extends Inserts id added g g' where
  order : (g'.paths added).Sublist deps
  inputs : ∀ path ∈ deps, HasInput g' id path
  created : ∀ n : Nat, g.nodes.size ≤ n → n < g'.nodes.size → n ∈ (g'.edge id).ins

namespace TakesIn

theorem refl (id : EdgeId) (g : Graph) : TakesIn id [] [] g g where
  toInserts := .refl id g
  order := .slnil
  inputs := by simp
  created n hle hlt := absurd hlt (Nat.not_lt.mpr hle)

theorem append {deps rest : List String} (h : TakesIn id deps added g g')
    (h' : TakesIn id rest more g' g'') : TakesIn id (deps ++ rest) (added ++ more) g g'' where
  toInserts := h.toInserts.trans h'.toInserts
  order := by
    have hkept : g''.paths added = g'.paths added :=
      List.map_congr_left fun n hn => h'.path n (h.lt_size n hn)
    rw [Graph.paths_append, hkept]
    exact h.order.append h'.order
  inputs path hpath := by
    rcases List.mem_append.mp hpath with hpath | hpath
    · exact (h.inputs path hpath).grows h'.toGrows
    · exact h'.inputs path hpath
  created n hle hlt := by
    by_cases hn : n < g'.nodes.size
    · exact h'.ins_subset id (h.created n hle hn)
    · exact h'.created n (Nat.le_of_not_lt hn) hlt

end TakesIn

/-! ## Adding dependencies -/

/-- The graph with a new node that only a dependency file names. -/
theorem ensureDep_of_none {g : Graph} {path : String} (hfind : g.findNode? path = none) :
    ensureDep g path = (g.nodes.size, ({ g with nodes := g.nodes.push (.ofPath path) } :
      Graph).modifyNode g.nodes.size ({ · with fromDepfile := true })) := by
  simp [ensureDep, Graph.ensureNode, hfind]

theorem ensureDep_of_some {g : Graph} {path : String} {n : NodeId}
    (hfind : g.findNode? path = some n) : ensureDep g path = (n, g) := by
  simp only [ensureDep, hfind]

theorem edge_ensureDep (g : Graph) (path : String) (e : EdgeId) :
    (ensureDep g path).2.edge e = g.edge e := by
  unfold ensureDep Graph.ensureNode
  cases g.findNode? path <;> rfl

/-- The node that is created is marked, and no other one changes. -/
theorem node_ensureDep_of_none {g : Graph} {path : String} (hfind : g.findNode? path = none)
    (n : Nat) : (ensureDep g path).2.node n =
      if n = g.nodes.size then { Node.ofPath path with fromDepfile := true } else g.node n := by
  rw [ensureDep_of_none hfind, Graph.node_modifyNode, Graph.node_push]
  by_cases hn : n = g.nodes.size
  · simp [hn]
  · simp [hn, Ne.symm hn]

theorem findNode?_ensureDep (g : Graph) (path : String) :
    (ensureDep g path).2.findNode? path = some (ensureDep g path).1 := by
  cases hfind : g.findNode? path with
  | some n => rwa [ensureDep_of_some hfind]
  | none =>
    have hnode := node_ensureDep_of_none hfind
    rw [Graph.findNode?_eq_some_iff]
    refine ⟨by simp [ensureDep_of_none hfind], ?_, fun m hm => ?_⟩
    · rw [hnode, ensureDep_of_none hfind, if_pos rfl]
      rfl
    · rw [ensureDep_of_none hfind] at hm
      rw [hnode, if_neg (Nat.ne_of_lt hm)]
      exact Graph.findNode?_eq_none hfind hm

theorem size_ensureDep_of_none {path : String} (hfind : g.findNode? path = none) :
    (ensureDep g path).2.nodes.size = g.nodes.size + 1 := by
  rw [ensureDep_of_none hfind]
  simp

/-- Only the dependency gets a new node. -/
theorem eq_of_lt_size_ensureDep {path : String} {n : Nat} (hle : g.nodes.size ≤ n)
    (hlt : n < (ensureDep g path).2.nodes.size) : n = (ensureDep g path).1 := by
  cases hfind : g.findNode? path with
  | some m =>
    rw [ensureDep_of_some hfind] at hlt
    exact absurd hlt (Nat.not_lt.mpr hle)
  | none =>
    rw [size_ensureDep_of_none hfind] at hlt
    rw [ensureDep_of_none hfind]
    exact Nat.le_antisymm (Nat.le_of_lt_succ hlt) hle

theorem ensureDep_grows (g : Graph) (path : String) : g.Grows (ensureDep g path).2 := by
  cases hfind : g.findNode? path with
  | some n =>
    rw [ensureDep_of_some hfind]
    exact .refl g
  | none =>
    have hnode := node_ensureDep_of_none hfind
    have hedge := edge_ensureDep g path
    rw [ensureDep_of_none hfind] at hnode hedge ⊢
    refine ⟨rfl, rfl, rfl, rfl, by simp, fun n hn => ?_, fun n => ?_, fun e => ⟨[], by simp, ?_⟩⟩
    · rw [hnode, if_neg (Nat.ne_of_lt hn)]
    · rw [hnode]
      split
      · next hn => rw [hn, Graph.node_of_size_le (Nat.le_refl _)]; rfl
      · rfl
    · rw [hedge, List.append_nil]

theorem ensureDep_inserts (id : EdgeId) (g : Graph) (path : String) :
    Inserts id [] g (ensureDep g path).2 := by
  cases hfind : g.findNode? path with
  | some n =>
    rw [ensureDep_of_some hfind]
    exact .refl id g
  | none =>
    have hnode := node_ensureDep_of_none hfind
    have hdefault : g.node g.nodes.size = default := Graph.node_of_size_le (Nat.le_refl _)
    have hsize := size_ensureDep_of_none hfind
    refine ⟨ensureDep_grows g path, ?_, fun e _ => edge_ensureDep g path e, ?_, .nil, by simp,
      by simp, fun n => ?_, fun n => ?_, fun n => ?_, fun n hle hlt m hm => ?_⟩
    · rw [edge_ensureDep, Edge.insert_nil]
    · rw [ensureDep_of_none hfind]
      rfl
    · rw [hnode]
      split
      · next hn => rw [hn, hdefault]; rfl
      · simp
    · rw [hnode]
      split
      · next hn => rw [hn, hdefault]; rfl
      · rfl
    · rw [hnode, hsize]
      split
      · next hn => simp [hn]
      · next hn =>
        have hold : ¬(g.nodes.size ≤ n ∧ n < g.nodes.size + 1) := by omega
        rw [or_iff_left hold]
    · obtain rfl : n = g.nodes.size := by omega
      rw [hnode, hnode, if_pos rfl, if_neg (Nat.ne_of_lt hm)]
      exact Graph.findNode?_eq_none hfind hm

/-- A node of the graph that is no input of an edge becomes one. -/
theorem addImplicitIn_grows {n : NodeId} (hid : id < g.edges.size)
    (hn : n < g.nodes.size) (hnew : n ∉ (g.edge id).ins) : g.Grows (g.addImplicitIn id n) := by
  have hedge := Graph.edge_addImplicitIn g n hid
  have hnode := Graph.node_addImplicitIn g id hn
  refine ⟨rfl, rfl, rfl, by simp [Graph.addImplicitIn, Graph.linkConsumer],
    by simp [Graph.addImplicitIn, Graph.linkConsumer], fun m _ => ?_, fun m => ?_, fun e => ?_⟩
  · rw [hnode]; split <;> rfl
  · rw [hnode]; split <;> rfl
  · rw [hedge]
    split
    · next heq =>
      subst heq
      exact ⟨[n], by simpa using hnew, rfl⟩
    · exact ⟨[], by simp, by simp⟩

theorem addImplicitIn_inserts {n : NodeId} (hid : id < g.edges.size) (hn : n < g.nodes.size)
    (hnew : n ∉ (g.edge id).ins) : Inserts id [n] g (g.addImplicitIn id n) := by
  have hedge := Graph.edge_addImplicitIn g n hid
  have hnode := Graph.node_addImplicitIn g id hn
  have hsize : (g.addImplicitIn id n).nodes.size = g.nodes.size := by
    simp [Graph.addImplicitIn, Graph.linkConsumer]
  refine ⟨addImplicitIn_grows hid hn hnew, ?_, fun e he => ?_, rfl, List.nodup_singleton n,
    by simpa using hnew, by simpa [hsize] using hn, fun m => ?_, fun m => ?_, fun m => ?_,
    fun m hle hlt => absurd (hsize ▸ hlt) (Nat.not_lt.mpr hle)⟩
  · rw [hedge, if_pos rfl]
    rfl
  · rw [hedge, if_neg (Ne.symm he)]
  · rw [hnode]
    by_cases hm : n = m
    · simp [hm]
    · simp [hm, Ne.symm hm]
  · rw [hnode]
    split <;> rfl
  · have hold : ¬(g.nodes.size ≤ m ∧ m < (g.addImplicitIn id n).nodes.size) := by omega
    rw [hnode, or_iff_left hold]
    split <;> rfl

/-- A dependency adds its file, unless it is an input already. -/
theorem addDep_takesIn (hid : id < g.edges.size) (path : String) :
    ∃ added, TakesIn id [path] added g (addDep id g path) := by
  have hensure := ensureDep_inserts id g path
  have hfind := findNode?_ensureDep g path
  have hcreated : ∀ n : Nat, g.nodes.size ≤ n → n < (ensureDep g path).2.nodes.size →
      n = (ensureDep g path).1 := fun n hle hlt => eq_of_lt_size_ensureDep hle hlt
  unfold addDep
  generalize ensureDep g path = dep at hensure hfind hcreated
  obtain ⟨n, g₁⟩ := dep
  dsimp only at hensure hfind hcreated ⊢
  by_cases hin : n ∈ (g₁.edge id).ins
  · rw [if_pos (List.contains_iff_mem.mpr hin)]
    refine ⟨[], hensure, List.nil_sublist _, List.forall_mem_singleton.mpr ⟨n, hfind, hin⟩, ?_⟩
    intro m hle hlt
    rwa [hcreated m hle hlt]
  · rw [if_neg fun hc => hin (List.contains_iff_mem.mp hc)]
    obtain ⟨hn, hpath⟩ := Graph.findNode?_eq_some hfind
    have hadd := addImplicitIn_inserts (hensure.edges_size ▸ hid) hn hin
    have hmem : n ∈ ((g₁.addImplicitIn id n).edge id).ins :=
      hadd.mem_ins_iff.mpr (.inr (List.mem_singleton_self n))
    refine ⟨[n], hensure.trans hadd, ?_,
      List.forall_mem_singleton.mpr ⟨n, hadd.toGrows.findNode? hfind, hmem⟩, ?_⟩
    · rw [Graph.paths, List.map_singleton, hadd.path n hn, hpath]
    · intro m hle hlt
      rwa [hcreated m hle (by simpa [Graph.addImplicitIn, Graph.linkConsumer] using hlt)]

/-- Dependencies are taken in one after the other. -/
theorem foldl_addDep_takesIn (hid : id < g.edges.size) (deps : List String) :
    ∃ added, TakesIn id deps added g (deps.foldl (addDep id) g) := by
  induction deps generalizing g with
  | nil => exact ⟨[], .refl id g⟩
  | cons path deps ih =>
    obtain ⟨first, hfirst⟩ := addDep_takesIn hid path
    obtain ⟨rest, hrest⟩ := ih (hfirst.edges_size ▸ hid)
    exact ⟨first ++ rest, hfirst.append hrest⟩

end Depfile

end Rebuild
