import Rebuild.Proofs.Graph.Integrity
import Rebuild.Proofs.Sequence

/-!
# Loading a dependency file in place

Loading changes one graph, step after step: nodes are created and marked, inputs are put in before
the order-only ones, and nodes are linked back. All that can fail comes before the first of these
steps. So loading either fails and leaves the graph alone, or adds inputs in one place, in the order
of the dependency file, and every segment that an edge had stays what it was. No order is asked of
the graph: the same holds if nodes and edges do not agree about their links.
-/

namespace Rebuild

/-! ## Segments told by counts -/

namespace Layout

/-- One more implicit input, put in before the order-only ones. -/
def addImplicitIn (l : Layout) (n : NodeId) : Layout :=
  { l with ins := l.ins.insertIdx (l.ins.length - l.orderOnlyIns) n
           implicitIns := l.implicitIns + 1 }

/-- The input at a place is an order-only one. -/
def IsOrderOnly (l : Layout) (place : Nat) : Prop :=
  l.ins.length - l.orderOnlyIns ≤ place

instance (l : Layout) (place : Nat) : Decidable (l.IsOrderOnly place) :=
  inferInstanceAs (Decidable (_ ≤ _))

/-- The inputs that are order-only ones by their places. -/
def orderOnlyByPlace (l : Layout) : List NodeId :=
  (l.ins.zipIdx.filter fun input => l.IsOrderOnly input.2).map Prod.fst

end Layout

namespace Edge

theorem insertIdx_append (before after : List NodeId) (n : NodeId) :
    (before ++ after).insertIdx before.length n = before ++ n :: after := by
  induction before with
  | nil => rfl
  | cons m before ih => simpa using ih

/-- The place where the order-only inputs begin. -/
theorem length_ins_sub (e : Edge) :
    e.ins.length - e.orderOnlyIns.length = e.nonOrderOnlyIns.length := by
  simp [ins]

/-- By counts, an input is put in where the order-only ones begin. -/
theorem layout_insert_singleton (e : Edge) (n : NodeId) :
    (e.insert [n]).layout = e.layout.addImplicitIn n := by
  have hins : e.ins.insertIdx (e.ins.length - e.orderOnlyIns.length) n = (e.insert [n]).ins := by
    rw [length_ins_sub, ins_insert, ins, insertIdx_append, List.append_assoc, List.singleton_append]
  have himplicit : (e.insert [n]).implicitIns.length = e.implicitIns.length + 1 := by
    simp [insert]
  simp only [layout, Layout.addImplicitIn, hins, himplicit]
  rfl

/-- More inputs are put in one after the other. -/
theorem layout_insert (e : Edge) (added : List NodeId) :
    (e.insert added).layout = added.foldl Layout.addImplicitIn e.layout := by
  induction added generalizing e with
  | nil => rw [insert_nil, List.foldl_nil]
  | cons n added ih =>
    rw [List.foldl_cons, ← layout_insert_singleton, ← ih, insert_insert, List.singleton_append]

/-- An order-only input moves on by one place for each input that is put in before it. -/
example : [7, 8].foldl Layout.addImplicitIn ⟨[0], 0, [1, 2], 0, 1⟩ = ⟨[0], 0, [1, 7, 8, 2], 2, 1⟩ :=
  rfl

theorem isOrderOnly_layout (e : Edge) (place : Nat) :
    e.layout.IsOrderOnly place ↔ e.nonOrderOnlyIns.length ≤ place := by
  rw [Layout.IsOrderOnly, layout, length_ins_sub]

/-- The inputs at the places that the counts tell are the order-only ones. -/
theorem orderOnlyByPlace_layout (e : Edge) : e.layout.orderOnlyByPlace = e.orderOnlyIns := by
  have hbefore : e.nonOrderOnlyIns.zipIdx.filter (fun input =>
      decide (e.layout.IsOrderOnly input.2)) = [] := by
    refine List.filter_eq_nil_iff.mpr fun input hmem => ?_
    have hlt := (List.mem_zipIdx hmem).2.1
    rw [decide_eq_true_eq, isOrderOnly_layout]
    omega
  have hafter : (e.orderOnlyIns.zipIdx e.nonOrderOnlyIns.length).filter (fun input =>
      decide (e.layout.IsOrderOnly input.2)) =
        e.orderOnlyIns.zipIdx e.nonOrderOnlyIns.length := by
    refine List.filter_eq_self.mpr fun input hmem => ?_
    rw [decide_eq_true_eq, isOrderOnly_layout]
    exact (List.mem_zipIdx hmem).1
  have hins : e.layout.ins = e.nonOrderOnlyIns ++ e.orderOnlyIns := rfl
  rw [Layout.orderOnlyByPlace, hins, List.zipIdx_append, List.filter_append, hbefore,
    Nat.zero_add, hafter, List.nil_append, List.zipIdx_map_fst]

end Edge

namespace Depfile

/-! ## Loading step after step -/

/-- The node of a dependency: it is looked up, or created and then marked. -/
def findOrCreate (path : String) : EStateM Error Graph NodeId := do
  match (← get).findNode? path with
  | some n => return n
  | none =>
    let n ← modifyGet (·.ensureNode path)
    modify (·.modifyNode n ({ · with fromDepfile := true }))
    return n

/-- Puts a dependency among the inputs of an edge, and links it back. -/
def addInPlace (id : EdgeId) (path : String) : EStateM Error Graph Unit := do
  let n ← findOrCreate path
  if ((← get).edge id).ins.contains n then return ()
  modify (·.modifyEdge id fun e => { e with implicitIns := e.implicitIns ++ [n] })
  modify (Graph.linkConsumer id · n)

/-- Puts dependencies among the inputs of an edge, one after the other. -/
def addAllInPlace (id : EdgeId) : List String → EStateM Error Graph Unit
  | [] => return ()
  | path :: rest => do
    addInPlace id path
    addAllInPlace id rest

/-- Loads the dependency file of an edge into the graph at hand. If it fails, it leaves the graph as
it is at that point. -/
def loadInPlace (files : FileView) (id : EdgeId) : EStateM Error Graph Unit := do
  let written := (← get).edgeVar id "depfile"
  if written = "" then return ()
  let path := Path.canonical written
  match read files path with
  | .error e => throw e
  | .ok depfile =>
    match depfile.outputs with
    | [] => return ()
    | output :: _ =>
      let g ← get
      let outputs := g.paths (g.edge id).outs
      if !outputs.contains output then throw (.depfileMissingOutputs path outputs output)
      addAllInPlace id depfile.deps

theorem findOrCreate_eq (path : String) (g : Graph) :
    findOrCreate path g = .ok (ensureDep g path).1 (ensureDep g path).2 := by
  unfold findOrCreate ensureDep
  rw [Sequence.get_bind]
  cases g.findNode? path <;> rfl

theorem addInPlace_eq (id : EdgeId) (path : String) (g : Graph) :
    addInPlace id path g = .ok () (addDep id g path) := by
  unfold addInPlace addDep
  rw [Sequence.bind_of_ok _ (findOrCreate_eq path g), Sequence.get_bind]
  generalize ensureDep g path = dep
  obtain ⟨n, g₁⟩ := dep
  dsimp only
  by_cases hin : (g₁.edge id).ins.contains n
  · rw [if_pos hin, if_pos hin]
    rfl
  · rw [if_neg hin, if_neg hin]
    rfl

theorem addAllInPlace_eq (id : EdgeId) (deps : List String) (g : Graph) :
    addAllInPlace id deps g = .ok () (deps.foldl (addDep id) g) := by
  induction deps generalizing g with
  | nil => rfl
  | cons path deps ih =>
    rw [addAllInPlace, Sequence.bind_of_ok _ (addInPlace_eq id path g), ih, List.foldl_cons]

/-- Loading step after step comes to the same, and all that fails does so before the first step. -/
theorem loadInPlace_eq (files : FileView) (id : EdgeId) (g : Graph) :
    loadInPlace files id g = match load files g id with
      | .ok g' => .ok () g'
      | .error e => .error e g := by
  rw [load_eq]
  unfold loadInPlace
  rw [Sequence.get_bind]
  dsimp only
  by_cases hvar : g.edgeVar id "depfile" = ""
  · rw [if_pos hvar, if_pos hvar]
    rfl
  rw [if_neg hvar, if_neg hvar]
  cases read files (Path.canonical (g.edgeVar id "depfile")) with
  | error e => rfl
  | ok depfile =>
    simp only [Except.bind]
    cases depfile.outputs with
    | nil => rfl
    | cons output rest =>
      dsimp only
      rw [Sequence.get_bind]
      by_cases hmem : output ∈ g.paths (g.edge id).outs
      · rw [if_pos hmem, if_neg (by simpa using hmem)]
        exact addAllInPlace_eq id depfile.deps g
      · rw [if_neg hmem, if_pos (by simpa using hmem)]
        rfl

/-- What can be wrong with the dependency file of an edge: it cannot be read, or its first output is
that of another edge. -/
inductive Faulty (files : FileView) (g : Graph) (id : EdgeId) : Error → Prop
  | unread {e : Error} (written : g.edgeVar id "depfile" ≠ "")
    (read : Depfile.read files (Path.canonical (g.edgeVar id "depfile")) = .error e) :
    Faulty files g id e
  | foreign {depfile : Depfile} {output : String} {rest : List String}
    (written : g.edgeVar id "depfile" ≠ "")
    (read : Depfile.read files (Path.canonical (g.edgeVar id "depfile")) = .ok depfile)
    (outputs : depfile.outputs = output :: rest) (other : output ∉ g.paths (g.edge id).outs) :
    Faulty files g id (.depfileMissingOutputs (Path.canonical (g.edgeVar id "depfile"))
      (g.paths (g.edge id).outs) output)

/-- Loading fails exactly for what is wrong with the file. -/
theorem load_eq_error_iff {files : FileView} {g : Graph} {id : EdgeId} {e : Error} :
    load files g id = .error e ↔ Faulty files g id e := by
  rw [load_eq]
  constructor
  · intro h
    split at h
    · cases h
    next hvar =>
    cases hread : read files (Path.canonical (g.edgeVar id "depfile")) with
    | error d =>
      rw [hread] at h
      cases h
      exact .unread hvar hread
    | ok depfile =>
      simp only [hread, Except.bind] at h
      split at h
      · cases h
      next output rest houtputs =>
      split at h
      · cases h
      next hother =>
      cases h
      exact .foreign hvar hread houtputs hother
  · intro h
    cases h with
    | unread hvar hread =>
      rw [if_neg hvar, hread]
      rfl
    | foreign hvar hread houtputs hother =>
      rw [if_neg hvar, hread, Except.bind, houtputs]
      exact if_neg hother

/-- Loading the dependency file of an edge, whatever the file and the graph are, is all or nothing
and keeps the segments of the edge. If something is wrong with the file, loading fails and the graph
is what it was. If not, the edge has taken in what the file lists: the dependencies that were no
inputs before stand together between the implicit inputs that it had and the order-only ones, in the
order of the file and each once, and what else the edge makes, uses and is validated by is what it
was. By counts, there are as many more implicit inputs, and the places of order-only inputs hold
what they held. What is newly marked as known from dependency files only had no node before. -/
theorem loading_keeps_segments (files : FileView) (g : Graph) (id : EdgeId) :
    match loadInPlace files id g with
    | .error e g' => load files g id = .error e ∧ Faulty files g id e ∧ g' = g
    | .ok _ g' => load files g id = .ok g' ∧ (∀ e, ¬Faulty files g id e) ∧ ∃ added,
        TakesIn id (listed files g id) added g g' ∧
        (g'.edge id).ins = (g.edge id).nonOrderOnlyIns ++ added ++ (g.edge id).orderOnlyIns ∧
        (g'.edge id).layout = added.foldl Layout.addImplicitIn (g.edge id).layout ∧
        (g'.edge id).layout.implicitIns = (g.edge id).layout.implicitIns + added.length ∧
        (g'.edge id).layout.orderOnlyByPlace = (g.edge id).layout.orderOnlyByPlace ∧
        ∀ n : Nat, (g'.node n).fromDepfile → (g.node n).fromDepfile ∨
          n < g'.nodes.size ∧ g.findNode? (g'.node n).path = none := by
  rw [loadInPlace_eq]
  cases hload : load files g id with
  | error e => exact ⟨rfl, load_eq_error_iff.mp hload, rfl⟩
  | ok g' =>
    obtain ⟨added, htakes⟩ := load_takesIn hload
    refine ⟨rfl, fun e hfaulty => ?_, added, htakes, ?_, ?_, ?_, ?_, fun n hmarked => ?_⟩
    · rw [load_eq_error_iff.mpr hfaulty] at hload
      cases hload
    · rw [htakes.edge_eq, Edge.ins_insert]
    · rw [htakes.edge_eq, Edge.layout_insert]
    · rw [htakes.edge_eq]
      exact List.length_append
    · rw [Edge.orderOnlyByPlace_layout, Edge.orderOnlyByPlace_layout, htakes.edge_eq]
      rfl
    · refine ((htakes.marked n).mp hmarked).imp_right fun ⟨hle, hlt⟩ => ?_
      exact ⟨hlt, htakes.findNode?_eq_none hle hlt⟩

end Depfile

end Rebuild
