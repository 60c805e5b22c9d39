import Mathlib
import Rebuild.Proofs.Scan.Cycles
import Rebuild.Proofs.Scan.Outcome

/-!
# What scanning a target covers

Whatever is newly found out when a target is scanned is about what the target is made from. The
validations that are met on the way are those of the edges that were come to, each once: together
with those of edges that were not looked at they are always the same. So what is still outstanding
tells how many steps it takes to scan all validations.
-/

namespace Rebuild.Scan

open Relation (ReflTransGen)

variable {src : Sources} {files : FileView} {id : EdgeId} {s t u s' t' : Scan} {n m : NodeId}

/-! ## Findings -/

/-- A scan with the findings of another one, its own validations and faults being kept. -/
def adopt (s t : Scan) : Scan := { s with graph := t.graph, survey := t.survey }

/-- Validations and faults that were met make no difference to a step. -/
theorem Step.congr (h : Step src s t) (hgraph : s'.graph = s.graph) (hsurvey : s'.survey = s.survey)
    (hgraph' : t'.graph = t.graph) (hsurvey' : t'.survey = t.survey) : Step src s' t' := by
  obtain ⟨g, survey, _, _⟩ := s
  obtain ⟨g', survey', _, _⟩ := s'
  obtain ⟨_, _, _, _⟩ := t
  obtain ⟨_, _, _, _⟩ := t'
  cases hgraph
  cases hsurvey
  cases hgraph'
  cases hsurvey'
  cases h with
  | looks h hlt => exact .looks ⟨h.leaf, h.fresh, h.graph, h.edge, h.other, h.node⟩ hlt
  | opens h => exact .opens ⟨h.fresh, h.graph, h.edge, h.other, h.apart, h.out⟩
  | holds h => exact .holds ⟨h.current, h.graph, h.edge, h.other, h.node⟩
  | concludes h =>
    exact .concludes ⟨h.current, h.known, h.ready, h.graph, h.edge, h.other, h.apart, h.out⟩

theorem Course.adopt (h : Course src s t) (hgraph : s'.graph = s.graph)
    (hsurvey : s'.survey = s.survey) : Course src s' (s'.adopt t) := by
  induction h with
  | refl =>
    have hsame : s'.adopt s = s' := by rw [Scan.adopt, ← hgraph, ← hsurvey]
    rw [hsame]
  | tail _ hstep ih => exact ih.tail (hstep.congr rfl rfl rfl rfl)

/-- A course that goes on from findings of another one. -/
theorem Course.adopt_trans (h : Course src s (s.adopt t)) (h' : Course src t u) :
    Course src s (s.adopt u) :=
  h.trans (h'.adopt rfl rfl)

theorem Orderly.congr {log : BuildLog} (hs : Orderly log s) (hgraph : t.graph = s.graph)
    (hsurvey : t.survey = s.survey) : Orderly log t := by
  obtain ⟨g, survey, _, _⟩ := s
  obtain ⟨g', survey', _, _⟩ := t
  cases hgraph
  cases hsurvey
  refine ⟨hs.linked, fun e he => ?_⟩
  obtain ⟨hknown, hdirty, hready, hfounded⟩ := hs.closed e he
  exact ⟨hknown, hdirty, hready, hfounded⟩

/-! ## What scanning a node spreads to -/

/-- What is newly found out between two states of a scan is about what a file is made from. -/
structure Spreads (s t : Scan) (n : NodeId) : Prop where
  edge : ∀ e, s.visitOf e = .unvisited → t.visitOf e ≠ .unvisited →
    ∃ m, ReflTransGen t.graph.MadeFrom n m ∧ (t.graph.node m).producer = some e
  leaf : ∀ m, (s.graph.node m).producer = none → ¬(s.survey.node m).isStatted →
    (t.survey.node m).isStatted → ReflTransGen t.graph.MadeFrom n m

/-- Holding an edge back leaves all but whether its outputs can be used. -/
theorem visitOf_held (id : EdgeId) (input : NodeId) (s : Scan) (e : EdgeId) :
    (held id input s).visitOf e = s.visitOf e := by
  unfold held
  split
  · rfl
  · rw [visitOf, Survey.edge_modifyEdge]
    split
    · next heq => exact heq ▸ rfl
    · rfl

theorem held_frame (id : EdgeId) (input : NodeId) (s : Scan) :
    (held id input s).graph = s.graph ∧ (held id input s).survey.nodes = s.survey.nodes ∧
      (held id input s).validations = s.validations := by
  unfold held
  split <;> exact ⟨rfl, rfl, rfl⟩

namespace Spreads

theorem of_same (hvisit : ∀ e, t.visitOf e = s.visitOf e)
    (hleaf : ∀ m, (s.graph.node m).producer = none →
      (t.survey.node m).isStatted = (s.survey.node m).isStatted) (n : NodeId) :
    Spreads s t n where
  edge e he hnew := absurd (hvisit e ▸ he) hnew
  leaf m hm hfresh hnew := absurd (hleaf m hm ▸ hnew) hfresh

theorem refl (s : Scan) (n : NodeId) : Spreads s s n :=
  of_same (fun _ => rfl) (fun _ _ => rfl) n

theorem trans (h : Spreads s t n) (h' : Spreads t u n) (hst : s.graph.Grows t.graph)
    (htu : t.graph.Grows u.graph) : Spreads s u n where
  edge e he hnew := by
    by_cases hmid : t.visitOf e = .unvisited
    · exact h'.edge e hmid hnew
    · obtain ⟨m, hm, hprod⟩ := h.edge e he hmid
      exact ⟨m, hm.lift (fun k => k) fun _ _ => htu.madeFrom, (htu.producer m).trans hprod⟩
  leaf m hm hfresh hnew := by
    by_cases hmid : (t.survey.node m).isStatted
    · exact (h.leaf m hm hfresh hmid).lift (fun k => k) fun _ _ => htu.madeFrom
    · exact h'.leaf m ((hst.producer m).trans hm) hmid hnew

/-- What goes into an input goes into what is made from it. -/
theorem of_madeFrom (h : Spreads s t m) (hmade : t.graph.MadeFrom n m) : Spreads s t n where
  edge e he hnew := by
    obtain ⟨k, hk, hprod⟩ := h.edge e he hnew
    exact ⟨k, .head hmade hk, hprod⟩
  leaf k hk hfresh hnew := .head hmade (h.leaf k hk hfresh hnew)

theorem looks (h : Looks files n s t) : Spreads s t n where
  edge e he hnew := absurd ((congrArg EdgeState.visit (h.edge e)).trans he) hnew
  leaf m _ hfresh hnew := by
    by_cases heq : m = n
    · exact heq ▸ .refl
    · rw [h.other m heq] at hnew
      exact absurd hnew hfresh

theorem opens (h : Opens files id s t) (hs : s.graph.Linked)
    (hn : (s.graph.node n).producer = some id) : Spreads s t n where
  edge e he hnew := by
    by_cases heq : e = id
    · exact ⟨n, .refl, heq ▸ ((h.adds hs).grows.producer n).trans hn⟩
    · exact absurd ((congrArg EdgeState.visit (h.other e heq)).trans he) hnew
  leaf m hm hfresh hnew := by
    rw [h.apart m fun hmem => by rw [(hs.producer_iff m id).mpr hmem] at hm; cases hm] at hnew
    exact absurd hnew hfresh

theorem held (id : EdgeId) (input : NodeId) (s : Scan) (n : NodeId) :
    Spreads s (held id input s) n :=
  of_same (visitOf_held id input s)
    (fun m _ => by rw [Survey.node, (held_frame id input s).2.1, ← Survey.node]) n

theorem concludes {log : BuildLog} (h : Concludes log id s t) (hs : s.graph.Linked) (n : NodeId) :
    Spreads s t n where
  edge e he hnew := by
    by_cases heq : e = id
    · rw [heq, h.current] at he
      cases he
    · exact absurd ((congrArg EdgeState.visit (h.other e heq)).trans he) hnew
  leaf m hm hfresh hnew := by
    rw [h.apart m fun hmem => by rw [(hs.producer_iff m id).mpr hmem] at hm; cases hm] at hnew
    exact absurd hnew hfresh

end Spreads

/-! ## Validations -/

/-- The edges that were not looked at. -/
def unvisitedEdges (s : Scan) : Finset EdgeId :=
  (Finset.range s.graph.edges.size).filter fun e => s.visitOf e = .unvisited

/-- The validations that were met and not taken yet, and those of edges that were not looked at. -/
def outstanding (s : Scan) : Multiset NodeId :=
  s.validations + ∑ e ∈ s.unvisitedEdges, ((s.graph.edge e).validations : Multiset NodeId)

theorem mem_unvisitedEdges {e : Nat} :
    e ∈ s.unvisitedEdges ↔ e < s.graph.edges.size ∧ s.visitOf e = .unvisited := by
  rw [unvisitedEdges, Finset.mem_filter, Finset.mem_range]

/-- While no other edges are come to, what is outstanding changes with the validations met. -/
theorem outstanding_add {more : List NodeId} (hgraph : s.graph.Grows t.graph)
    (hvisit : ∀ e, t.visitOf e = .unvisited ↔ s.visitOf e = .unvisited)
    (hmore : t.validations = s.validations ++ more) : t.outstanding = s.outstanding + more := by
  have hedges : t.unvisitedEdges = s.unvisitedEdges := by
    ext e
    rw [mem_unvisitedEdges, mem_unvisitedEdges, hgraph.edges_size, hvisit]
  rw [outstanding, outstanding, hedges, hmore, ← Multiset.coe_add, add_right_comm]
  simp only [hgraph.validations]

theorem outstanding_eq (hgraph : s.graph.Grows t.graph)
    (hvisit : ∀ e, t.visitOf e = .unvisited ↔ s.visitOf e = .unvisited)
    (hsame : t.validations = s.validations) : t.outstanding = s.outstanding := by
  have hnone : t.validations = s.validations ++ [] := by rw [hsame, List.append_nil]
  rw [outstanding_add hgraph hvisit hnone, Multiset.coe_nil, add_zero]

theorem Opens.outstanding (h : Opens files id s t) (hs : s.graph.Linked)
    (hlt : id < s.graph.edges.size) (hsame : t.validations = s.validations) :
    t.outstanding + (t.graph.edge id).validations = s.outstanding := by
  have hgrows := (h.adds hs).grows
  have hedges : t.unvisitedEdges = s.unvisitedEdges.erase id := by
    ext e
    rw [Finset.mem_erase, mem_unvisitedEdges, mem_unvisitedEdges, hgrows.edges_size]
    by_cases heq : e = id
    · subst heq
      simp [h.visitOf_eq]
    · simp [heq, visitOf, h.other e heq]
  have hmem : id ∈ s.unvisitedEdges := mem_unvisitedEdges.mpr ⟨hlt, h.fresh⟩
  rw [Scan.outstanding, Scan.outstanding, hedges, hsame, add_assoc]
  simp only [hgrows.validations]
  rw [Finset.sum_erase_add _ _ hmem]

/-- What scanning a node comes to, and that nothing outstanding is lost. -/
structure Covers (s t : Scan) (n : NodeId) : Prop extends Spreads s t n where
  outstanding : t.outstanding = s.outstanding

theorem scanLeaf_covers (hn : (s.graph.node n).producer = none)
    (h : scanLeaf src.files n s = .ok () t) : Covers s t n := by
  have hvalidations : t.validations = s.validations := by
    obtain ⟨looked, u, hfirst, hrest⟩ := Sequence.bind_eq_ok.mp h
    rcases statOnce_ok hfirst with ⟨rfl, -, rfl⟩ | ⟨rfl, -, mtime, -, rfl⟩ <;> cases hrest <;> rfl
  obtain ⟨-, rfl | hlooks⟩ := scanLeaf_looks hn h
  · exact ⟨.refl t n, rfl⟩
  · refine ⟨.looks hlooks, outstanding_eq hlooks.onward.graph (fun e => ?_) hvalidations⟩
    rw [visitOf, hlooks.edge, ← visitOf]

/-- Scanning inputs comes to what goes into what is made from them. -/
theorem scanInputs_covers {visit : NodeId → Scanning Unit} {depth : Nat}
    (hvisit : ∀ {n u v}, u.graph.Linked → n < u.graph.nodes.size → u.unvisitedCount ≤ depth →
      visit n u = .ok () v → Learns src u v n ∧ Covers u v n)
    {inputs : List (NodeId × Bool)} {sum sum' : InputSummary} (hs : s.graph.Linked)
    (hn : (s.graph.node n).producer = some id)
    (hinputs : ∀ p ∈ inputs, p.1 ∈ (s.graph.edge id).ins) (hdepth : s.unvisitedCount ≤ depth)
    (hid : s.visitOf id = .inProgress) (h : scanInputs visit id inputs sum s = .ok sum' t) :
    Collects src id s t ∧ Covers s t n := by
  induction inputs generalizing s sum with
  | nil =>
    obtain ⟨-, rfl⟩ := Sequence.pure_eq_ok.mp h
    exact ⟨.refl src hid, .refl s n, rfl⟩
  | cons p inputs ih =>
    obtain ⟨input, orderOnly⟩ := p
    obtain ⟨_, u, hfirst, -⟩ := Sequence.bind_eq_ok.mp h
    rw [scanInputs_cons input orderOnly inputs sum hfirst] at h
    have hin := hinputs _ List.mem_cons_self
    obtain ⟨hlearns, hcovers⟩ := hvisit hs (hs.lt_of_in hin) hdepth hfirst
    have hgather := hlearns.collects hid
    have hsofar := hgather.trans (collects_held input hgather.visit)
    obtain ⟨hgraph, -, hvalidations⟩ := held_frame id input u
    have hgrows : u.graph.Grows (held id input u).graph := hgraph ▸ .refl _
    have hproducer := (hsofar.onward.graph.producer n).trans hn
    obtain ⟨htail, hrest⟩ := ih (hsofar.course.linked hs) hproducer
      (fun q hq => hsofar.edge ▸ hinputs q (List.mem_cons_of_mem _ hq))
      (Nat.le_trans hsofar.unvisitedCount_le hdepth) hsofar.visit h
    have hmade : u.graph.MadeFrom n input :=
      ⟨id, (hgather.onward.graph.producer n).trans hn, hgather.edge ▸ hin⟩
    have hfirstly : Spreads s (held id input u) n :=
      (hcovers.toSpreads.of_madeFrom hmade).trans (.held id input u n) hgather.onward.graph hgrows
    refine ⟨hsofar.trans htail,
      hfirstly.trans hrest.toSpreads hsofar.onward.graph htail.onward.graph, ?_⟩
    rw [hrest.outstanding, outstanding_eq hgrows (fun e => by rw [visitOf_held]) hvalidations,
      hcovers.outstanding]

theorem scanEdge_covers {visit : NodeId → Scanning Unit} {depth : Nat}
    (hvisit : ∀ {n u v}, u.graph.Linked → n < u.graph.nodes.size → u.unvisitedCount ≤ depth →
      visit n u = .ok () v → Learns src u v n ∧ Covers u v n)
    (hs : s.graph.Linked) (hn : (s.graph.node n).producer = some id)
    (hid : s.visitOf id = .unvisited) (hdepth : s.unvisitedCount ≤ depth + 1)
    (h : scanEdge src visit id s = .ok () t) : Covers s t n := by
  obtain ⟨v, w, sum, hopens, hvalidations, hcount, hinputs, -, hconcludes, hnoted⟩ :=
    scanEdge_steps (fun hu hlt hle hv => (hvisit hu hlt hle hv).1) hs hid (hs.edge_lt_of_out hn)
      hdepth h
  have hgrows := (hopens.adds hs).grows
  have hv := (hopens.adds hs).linked
  obtain ⟨hgather, hcovers⟩ := scanInputs_covers hvisit hv ((hgrows.producer n).trans hn)
    (fun p hp => mem_inputs hp) hcount hopens.visitOf_eq hinputs
  have hrest := hgather.onward.graph
  have hlast := (hconcludes.onward (hgather.course.linked hv)).graph
  refine ⟨?_, ?_⟩
  · exact ((Spreads.opens hopens hs hn).trans hcovers.toSpreads hgrows hrest).trans
      (.concludes hconcludes (hgather.course.linked hv) n) (hgrows.trans hrest) hlast
  · rw [outstanding_add hlast (fun e => ?_) hnoted, hcovers.outstanding, hgather.edge,
      hopens.outstanding hs (hs.edge_lt_of_out hn) hvalidations]
    by_cases heq : e = id
    · rw [heq, hconcludes.visitOf_eq, hgather.visit]
      simp
    · rw [visitOf, hconcludes.other e heq, ← visitOf]

/-- The walk to a node comes to what the node is made from, and nothing outstanding is lost. -/
theorem visit_covers {depth : Nat} {stack : List NodeId} (hs : s.graph.Linked)
    (hlt : n < s.graph.nodes.size) (hdepth : s.unvisitedCount ≤ depth)
    (h : visit src depth stack n s = .ok () t) : Covers s t n := by
  induction depth generalizing stack n s t with
  | zero =>
    rcases visit_ok h with ⟨hn, hleaf⟩ | ⟨e, -, ⟨-, rfl⟩ | ⟨-, ⟨-, rfl⟩ | ⟨d, hd, -⟩⟩⟩
    · exact scanLeaf_covers hn hleaf
    · exact ⟨.refl t n, rfl⟩
    · exact ⟨.refl t n, rfl⟩
    · cases hd
  | succ depth ih =>
    rcases visit_ok h with ⟨hn, hleaf⟩ | ⟨e, hn, ⟨-, rfl⟩ | ⟨he, ⟨-, rfl⟩ | ⟨d, hd, hedge⟩⟩⟩
    · exact scanLeaf_covers hn hleaf
    · exact ⟨.refl t n, rfl⟩
    · exact ⟨.refl t n, rfl⟩
    · obtain rfl : depth = d := Nat.succ.inj hd
      exact scanEdge_covers (fun hu hlt hle hv => ⟨visit_learns hu hlt hle hv, ih hu hlt hle hv⟩)
        hs hn he hdepth hedge

theorem target_covers (hs : s.graph.Linked) (hlt : n < s.graph.nodes.size)
    (h : target src n s = .ok () t) : Covers s t n := by
  rw [target, Sequence.get_bind] at h
  exact visit_covers hs hlt (s.graph.countEdges_le_size _) h

/-- Validations that were met are those from before and those of edges that were come to. -/
theorem mem_validations_iff (hgraph : s.graph.Grows t.graph)
    (hvisit : ∀ e, s.visitOf e ≠ .unvisited → t.visitOf e ≠ .unvisited)
    (hsame : t.outstanding = s.outstanding) (v : NodeId) : v ∈ t.validations ↔ v ∈ s.validations ∨
      ∃ e, s.visitOf e = .unvisited ∧ t.visitOf e ≠ .unvisited ∧
        v ∈ (s.graph.edge e).validations := by
  have hsub : t.unvisitedEdges ⊆ s.unvisitedEdges := fun e he => by
    rw [mem_unvisitedEdges] at he ⊢
    exact ⟨hgraph.edges_size ▸ he.1, by_contra fun hne => hvisit e hne he.2⟩
  have hnew : (t.validations : Multiset NodeId) = s.validations +
      ∑ e ∈ s.unvisitedEdges \ t.unvisitedEdges,
        ((s.graph.edge e).validations : Multiset NodeId) := by
    rw [outstanding, outstanding, ← Finset.sum_sdiff hsub, ← add_assoc] at hsame
    simp only [hgraph.validations] at hsame
    exact add_right_cancel hsame
  rw [← Multiset.mem_coe, hnew, Multiset.mem_add, Multiset.mem_coe, Multiset.mem_sum]
  refine or_congr_right (exists_congr fun e => ?_)
  rw [Finset.mem_sdiff, mem_unvisitedEdges, mem_unvisitedEdges, hgraph.edges_size]
  constructor
  · rintro ⟨⟨⟨hlt, he⟩, hnot⟩, hv⟩
    exact ⟨he, fun heq => hnot ⟨hlt, heq⟩, hv⟩
  · rintro ⟨he, hne, hv⟩
    refine ⟨⟨⟨?_, he⟩, fun hand => hne hand.2⟩, hv⟩
    by_contra hlt
    rw [Graph.edge_of_size_le (Nat.le_of_not_lt hlt)] at hv
    cases hv

end Rebuild.Scan
