import Rebuild.Proofs.Depfile.Listing

/-!
# Inputs by their paths

Nodes that a dependency file creates are numbered in the order in which the files are loaded, so two
graphs that grew from one in different orders are compared by the paths of files. By paths, what
loading does to an edge depends on that edge alone: each dependency that is not an input of any kind
goes to the end of the implicit inputs. The nodes that are created are those of new inputs.
-/

namespace Rebuild

/-- The inputs of an edge by their paths. -/
structure InputPaths where
  explicit : List String
  implicit : List String
  orderOnly : List String
deriving DecidableEq

namespace InputPaths

def all (inputs : InputPaths) : List String :=
  inputs.explicit ++ inputs.implicit ++ inputs.orderOnly

/-- The inputs with a dependency. -/
def add (inputs : InputPaths) (path : String) : InputPaths :=
  if path ∈ inputs.all then inputs
  else { inputs with implicit := inputs.implicit ++ [path] }

end InputPaths

def Graph.inputPaths (g : Graph) (e : EdgeId) : InputPaths where
  explicit := g.paths (g.edge e).explicitIns
  implicit := g.paths (g.edge e).implicitIns
  orderOnly := g.paths (g.edge e).orderOnlyIns

namespace Graph

variable {g g' : Graph} {e : EdgeId} {path : String}

/-- Files of a list are found by their paths in a list with the same paths. -/
theorem exists_of_paths_eq {ids ids' : List NodeId} (h : g'.paths ids' = g.paths ids) {m : NodeId}
    (hm : m ∈ ids) : ∃ m' ∈ ids', (g'.node m').path = (g.node m).path := by
  have hmem : (g.node m).path ∈ g'.paths ids' := h ▸ Graph.mem_paths.mpr ⟨m, hm, rfl⟩
  exact Graph.mem_paths.mp hmem

theorem all_inputPaths (g : Graph) (e : EdgeId) :
    (g.inputPaths e).all = g.paths (g.edge e).ins := by
  simp only [InputPaths.all, inputPaths, Edge.ins, Edge.nonOrderOnlyIns, paths_append]

/-- The inputs of an edge that did not change keep their paths. -/
theorem Grows.inputPaths_eq (h : g.Grows g') (hg : g.Linked) (hedge : g'.edge e = g.edge e) :
    g'.inputPaths e = g.inputPaths e := by
  have hsame : ∀ ids ⊆ (g.edge e).ins, g'.paths ids = g.paths ids := fun ids hsub =>
    List.map_congr_left fun n hn => h.path n (hg.lt_of_in (hsub hn))
  rw [inputPaths, inputPaths, hedge, hsame, hsame, hsame]
  all_goals
    intro n hn
    simp only [Edge.ins, Edge.nonOrderOnlyIns, List.mem_append]
    tauto

theorem paths_nonOrderOnlyIns (g : Graph) (e : EdgeId) :
    g.paths (g.edge e).nonOrderOnlyIns = (g.inputPaths e).explicit ++ (g.inputPaths e).implicit :=
  paths_append ..

/-- A node of a graph that has grown in two ways is found by its path. -/
theorem Grows.eq_of_path {g₁ g₂ : Graph} (h₁ : g.Grows g₁) (h₂ : g.Grows g₂) (hg₂ : g₂.Linked)
    {m m' : Nat} (hm : m < g.nodes.size) (hm' : m' < g₂.nodes.size)
    (hpath : (g₂.node m').path = (g₁.node m).path) : m' = m :=
  hg₂.paths_inj m' m hm' (Nat.lt_of_lt_of_le hm h₂.nodes_size)
    (hpath.trans ((h₁.path m hm).trans (h₂.path m hm).symm))

end Graph

namespace Depfile

variable {files files' : FileView} {g g' g'' : Graph} {id : EdgeId}

/-! ## Loading by paths -/

/-- Additions to the graph make no difference to what is listed. -/
theorem listed_grows (hg : g.Grows g') (h : g.Linked) : listed files g' id = listed files g id := by
  unfold listed
  rw [hg.edgeVar, hg.paths_outs h]

theorem listed_congr (hread : g.edgeVar id "depfile" ≠ "" →
    files'.read (Path.canonical (g.edgeVar id "depfile")) =
      files.read (Path.canonical (g.edgeVar id "depfile"))) :
    listed files' g id = listed files g id := by
  unfold listed
  split
  · rfl
  · next hvar => rw [read, read, hread hvar]

theorem inputPaths_addDep (h : g.Linked) (hid : id < g.edges.size) (dep : String) :
    (addDep id g dep).inputPaths id = (g.inputPaths id).add dep := by
  have hensure := ensureDep_inserts id g dep
  have hfind := findNode?_ensureDep g dep
  have hedge := edge_ensureDep g dep id
  unfold addDep
  generalize ensureDep g dep = found at hensure hfind hedge
  obtain ⟨n, g₁⟩ := found
  dsimp only at hensure hfind hedge ⊢
  rw [← hensure.toGrows.inputPaths_eq h hedge]
  have hg₁ := hensure.linked h
  obtain ⟨hlt, hpath⟩ := Graph.findNode?_eq_some hfind
  have hmem : n ∈ (g₁.edge id).ins ↔ dep ∈ (g₁.inputPaths id).all := by
    rw [g₁.all_inputPaths, Graph.mem_paths]
    refine ⟨fun hn => ⟨n, hn, hpath⟩, fun ⟨m, hm, hsame⟩ => ?_⟩
    rwa [← hg₁.paths_inj m n (hg₁.lt_of_in hm) hlt (hsame.trans hpath.symm)]
  by_cases hin : n ∈ (g₁.edge id).ins
  · rw [if_pos (List.contains_iff_mem.mpr hin), InputPaths.add, if_pos (hmem.mp hin)]
  · rw [if_neg fun hc => hin (List.contains_iff_mem.mp hc), InputPaths.add,
      if_neg fun hall => hin (hmem.mpr hall)]
    have hstep := Graph.edge_addImplicitIn g₁ n (hensure.edges_size ▸ hid) id
    have hpaths : ∀ ids, (g₁.addImplicitIn id n).paths ids = g₁.paths ids := fun ids =>
      List.map_congr_left fun m _ => by
        rw [Graph.node_addImplicitIn g₁ id hlt]
        split <;> rfl
    rw [if_pos rfl] at hstep
    have hlast : g₁.paths [n] = [dep] := congrArg ([·]) hpath
    simp only [Graph.inputPaths, hstep, hpaths, Graph.paths_append, hlast]

theorem inputPaths_foldl_addDep (h : g.Linked) (hid : id < g.edges.size) (deps : List String) :
    (deps.foldl (addDep id) g).inputPaths id = deps.foldl InputPaths.add (g.inputPaths id) := by
  induction deps generalizing g with
  | nil => rfl
  | cons dep deps ih =>
    obtain ⟨_, htakes⟩ := addDep_takesIn hid dep
    rw [List.foldl_cons, List.foldl_cons, ih (htakes.linked h) (htakes.edges_size ▸ hid),
      inputPaths_addDep h hid]

/-! ## New nodes -/

/-- Loading creates nodes for inputs of the edge only, and marks them. -/
structure Brings (id : EdgeId) (g g' : Graph) : Prop extends Adds id g g' where
  kept : ∀ n : Nat, n < g.nodes.size → (g'.node n).fromDepfile = (g.node n).fromDepfile
  brought : ∀ n : Nat, g.nodes.size ≤ n → n < g'.nodes.size →
    (g'.node n).fromDepfile ∧ n ∈ (g'.edge id).ins

theorem TakesIn.brings {deps : List String} {added : List NodeId}
    (htakes : TakesIn id deps added g g') (h : g.Linked) : Brings id g g' where
  toAdds := htakes.adds h
  kept n hn := Bool.eq_iff_iff.mpr
    ((htakes.marked n).trans (or_iff_left fun ⟨hle, _⟩ => absurd hn (Nat.not_lt.mpr hle)))
  brought n hle hlt := ⟨(htakes.marked n).mpr (.inr ⟨hle, hlt⟩), htakes.created n hle hlt⟩

end Depfile

end Rebuild
