import Rebuild.Proofs.Depfile.Inputs
import Rebuild.Proofs.Scan.Course

/-!
# What a scan adds, and what it leaves alone

The inputs that an edge ends up with are settled before the scan starts: those that it has, and
those that its dependency file lists, which are the same whenever the file is loaded. Edges that
were not come to stay as they were, and so does what is known of their outputs. All nodes that are
new at the end are inputs of edges that were come to.
-/

namespace Rebuild.Scan

variable {src : Sources} {files : FileView} {s t : Scan} {g : Graph} {id e : EdgeId}

/-! ## The dependency file of one edge -/

theorem loaded_eq_foldl (files : FileView) (g : Graph) (id : EdgeId) :
    loaded files g id = (Depfile.listed files g id).foldl (Depfile.addDep id) g := by
  unfold loaded
  rcases Depfile.load_eq_listed files g id with hload | ⟨hnone, err, hload⟩
  · rw [hload]
  · rw [hload, hnone]
    rfl

theorem loaded_brings (files : FileView) (hg : g.Linked) (id : EdgeId) :
    Depfile.Brings id g (loaded files g id) := by
  rw [loaded_eq_foldl]
  obtain ⟨_, htakes⟩ := Depfile.foldl_listed_takesIn files g id
  exact htakes.brings hg

theorem inputPaths_loaded (files : FileView) (hg : g.Linked) (id : EdgeId) :
    (loaded files g id).inputPaths id =
      (Depfile.listed files g id).foldl InputPaths.add (g.inputPaths id) := by
  rw [loaded_eq_foldl]
  cases hlisted : Depfile.listed files g id with
  | nil => rfl
  | cons path rest =>
    exact Depfile.inputPaths_foldl_addDep hg (Depfile.lt_of_listed (hlisted ▸ List.mem_cons_self)) _

/-! ## The inputs in the end -/

/-- The inputs that an edge has once its dependency file is loaded. -/
def inputsOf (files : FileView) (s : Scan) (e : EdgeId) : InputPaths :=
  if (s.survey.edge e).depsLoaded then s.graph.inputPaths e
  else (Depfile.listed files s.graph e).foldl InputPaths.add (s.graph.inputPaths e)

theorem mem_all_foldl_add (inputs : InputPaths) (deps : List String) (path : String) :
    path ∈ (deps.foldl InputPaths.add inputs).all ↔ path ∈ inputs.all ∨ path ∈ deps := by
  induction deps generalizing inputs with
  | nil => simp
  | cons dep deps ih =>
    have hone : path ∈ (inputs.add dep).all ↔ path ∈ inputs.all ∨ path = dep := by
      unfold InputPaths.add
      split
      · next hin => exact ⟨.inl, fun hor => hor.elim id fun heq => heq ▸ hin⟩
      · simp only [InputPaths.all, List.mem_append, List.mem_singleton]
        tauto
    rw [List.foldl_cons, ih, hone, List.mem_cons, or_assoc]

/-- An edge uses what will be its inputs. -/
theorem mem_inputsOf (path : String) : path ∈ (inputsOf files s e).all ↔ Uses files s e path := by
  unfold inputsOf Uses
  by_cases hdeps : (s.survey.edge e).depsLoaded
  · simp [hdeps, Graph.all_inputPaths]
  · simp [hdeps, mem_all_foldl_add, Graph.all_inputPaths, Depfile.mem_listed]

private theorem inputsOf_congr (hs : s.graph.Linked) (hgraph : s.graph.Grows t.graph)
    (hedge : t.graph.edge e = s.graph.edge e)
    (hdeps : (t.survey.edge e).depsLoaded = (s.survey.edge e).depsLoaded) :
    inputsOf files t e = inputsOf files s e := by
  rw [inputsOf, inputsOf, hdeps, hgraph.inputPaths_eq hs hedge, Depfile.listed_grows hgraph hs]

theorem Step.inputsOf_eq (h : Step src s t) (hs : s.graph.Linked) (e : EdgeId) :
    inputsOf src.files t e = inputsOf src.files s e := by
  cases h with
  | looks h _ => exact inputsOf_congr hs h.onward.graph (by rw [h.graph]) (by rw [h.edge])
  | @opens id h =>
    by_cases heq : e = id
    · subst heq
      unfold inputsOf
      rw [h.edge, h.graph]
      by_cases hdeps : (s.survey.edge e).depsLoaded
      · simp [hdeps]
      · simp [hdeps, inputPaths_loaded src.files hs]
    · exact inputsOf_congr hs (h.onward hs).graph ((h.adds hs).others e heq) (by rw [h.other e heq])
  | @holds id h =>
    refine inputsOf_congr hs h.onward.graph (by rw [h.graph]) ?_
    by_cases heq : e = id
    · subst heq; rw [h.edge]
    · rw [h.other e heq]
  | @concludes id h =>
    refine inputsOf_congr hs (h.onward hs).graph (by rw [h.graph]) ?_
    by_cases heq : e = id
    · subst heq; rw [h.edge]
    · rw [h.other e heq]

theorem Course.inputsOf_eq (h : Course src s t) (hs : s.graph.Linked) (e : EdgeId) :
    inputsOf src.files t e = inputsOf src.files s e := by
  induction h with
  | refl => rfl
  | tail hcourse hstep ih => exact (hstep.inputsOf_eq (Course.linked hcourse hs) e).trans ih

theorem Course.inputPaths_eq (h : Course src s t) (hs : s.graph.Linked)
    (hfresh : s.visitOf e = .unvisited) (ht : t.visitOf e ≠ .unvisited) :
    t.graph.inputPaths e = inputsOf src.files s e := by
  rw [← h.inputsOf_eq hs e, inputsOf, if_pos (h.depsLoaded hfresh ht)]

/-! ## What is left alone -/

/-- An edge that was not come to is as it was. -/
theorem Course.edge_kept (h : Course src s t) (hs : s.graph.Linked)
    (ht : t.visitOf e = .unvisited) :
    t.graph.edge e = s.graph.edge e ∧ t.survey.edge e = s.survey.edge e := by
  induction h with
  | refl => exact ⟨rfl, rfl⟩
  | tail hcourse hstep ih =>
    obtain ⟨-, own, htouches⟩ := hstep.touches (Course.linked hcourse hs)
    have he : some e ≠ own := fun heq => htouches.after e heq.symm ht
    obtain ⟨hedge, hstate⟩ := htouches.onward.kept e he (.inr ht)
    obtain ⟨hedge', hstate'⟩ := ih (htouches.visitOf_eq he ▸ ht)
    exact ⟨hedge.trans hedge', hstate.trans hstate'⟩

/-- So is what is known of its outputs. -/
theorem Course.out_kept (h : Course src s t) (hs : s.graph.Linked) {n : NodeId}
    (hn : (s.graph.node n).producer = some e) (ht : t.visitOf e = .unvisited) :
    t.survey.node n = s.survey.node n := by
  induction h with
  | refl => rfl
  | tail hcourse hstep ih =>
    obtain ⟨-, own, htouches⟩ := hstep.touches (Course.linked hcourse hs)
    have he : some e ≠ own := fun heq => htouches.after e heq.symm ht
    rw [htouches.node n e (((Course.grows hcourse hs).producer n).trans hn) he]
    exact ih (htouches.visitOf_eq he ▸ ht)

/-- Nothing is known of a file that nothing makes before it is looked at. -/
theorem Step.leaf_kept (h : Step src s t) (hs : s.graph.Linked) {n : NodeId}
    (hn : (s.graph.node n).producer = none) (ht : ¬(t.survey.node n).isStatted) :
    t.survey.node n = s.survey.node n := by
  have hout : ∀ e, n ∉ (s.graph.edge e).outs := fun e hmem => by
    rw [(hs.producer_iff n e).mpr hmem] at hn
    cases hn
  cases h with
  | @looks m h _ =>
    by_cases heq : n = m
    · subst heq
      obtain ⟨mtime, -, hnode⟩ := h.node
      rw [hnode] at ht
      exact absurd (NodeState.isStatted_withStat (s.survey.node n) mtime) ht
    · exact h.other n heq
  | @opens id h => exact h.apart n (hout id)
  | holds h => exact h.node n
  | @concludes id h => exact h.apart n (hout id)

theorem Course.leaf_kept (h : Course src s t) (hs : s.graph.Linked) {n : NodeId}
    (hn : (s.graph.node n).producer = none) (ht : ¬(t.survey.node n).isStatted) :
    t.survey.node n = s.survey.node n := by
  induction h with
  | refl => rfl
  | tail hcourse hstep ih =>
    have hlast := hstep.leaf_kept (Course.linked hcourse hs)
      (((Course.grows hcourse hs).producer n).trans hn) ht
    rw [hlast]
    exact ih (hlast ▸ ht)

/-! ## New nodes -/

/-- Whether a node is known only from dependency files: the new ones are, and they are inputs of
edges that were come to. -/
structure Marks (s t : Scan) : Prop where
  kept : ∀ n : Nat, n < s.graph.nodes.size →
    (t.graph.node n).fromDepfile = (s.graph.node n).fromDepfile
  brought : ∀ n : Nat, s.graph.nodes.size ≤ n → n < t.graph.nodes.size →
    (t.graph.node n).fromDepfile ∧ ∃ e, t.visitOf e ≠ .unvisited ∧ n ∈ (t.graph.edge e).ins

namespace Marks

theorem of_same (hgraph : t.graph = s.graph) : Marks s t :=
  ⟨fun _ _ => by rw [hgraph],
    fun _ hle hlt => absurd (hgraph ▸ hlt) (Nat.not_lt.mpr hle)⟩

theorem trans {u : Scan} (h : Marks s t) (h' : Marks t u) (hst : s.graph.Grows t.graph)
    (htu : t.graph.Grows u.graph)
    (hvisit : ∀ e, t.visitOf e ≠ .unvisited → u.visitOf e ≠ .unvisited) : Marks s u where
  kept n hn := (h'.kept n (Nat.lt_of_lt_of_le hn hst.nodes_size)).trans (h.kept n hn)
  brought n hle hlt := by
    by_cases hn : n < t.graph.nodes.size
    · obtain ⟨hmarked, e, he, hin⟩ := h.brought n hle hn
      exact ⟨(h'.kept n hn).trans hmarked, e, hvisit e he, htu.ins_subset e hin⟩
    · exact h'.brought n (Nat.le_of_not_lt hn) hlt

end Marks

theorem Step.marks (h : Step src s t) (hs : s.graph.Linked) : Marks s t := by
  cases h with
  | looks h _ => exact .of_same h.graph
  | @opens id h =>
    have hgraph := h.graph
    split at hgraph
    · exact .of_same hgraph
    · have hbrings := loaded_brings src.files hs id
      rw [← hgraph] at hbrings
      refine ⟨hbrings.kept, fun n hle hlt => ?_⟩
      obtain ⟨hmarked, hin⟩ := hbrings.brought n hle hlt
      exact ⟨hmarked, id, by rw [h.visitOf_eq]; simp, hin⟩
  | holds h => exact .of_same h.graph
  | concludes h => exact .of_same h.graph

theorem Course.marks (h : Course src s t) (hs : s.graph.Linked) : Marks s t := by
  induction h with
  | refl => exact .of_same rfl
  | @tail u v hcourse hstep ih =>
    have hu := Course.linked hcourse hs
    obtain ⟨-, own, htouches⟩ := hstep.touches hu
    refine ih.trans (hstep.marks hu) (Course.grows hcourse hs) htouches.onward.graph fun e he => ?_
    by_cases heq : some e = own
    · exact htouches.after e heq.symm
    · exact htouches.visitOf_eq heq ▸ he

end Rebuild.Scan
