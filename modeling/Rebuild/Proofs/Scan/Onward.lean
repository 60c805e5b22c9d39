import Rebuild.Proofs.Depfile.Listing
import Rebuild.Scan

/-!
# How a scan moves on

What a scan found out about an edge stays as it is: once an edge was looked at, only the work on
that edge itself changes its inputs, its state and the state of its outputs. `Onward own` relates
two states of a scan between which edge `own`, if any, was worked on, and any number of edges were
scanned that had not been looked at before.
-/

namespace Rebuild.Scan

/-- How far an edge was looked at. -/
def visitOf (s : Scan) (e : EdgeId) : Visit := (s.survey.edge e).visit

/-- What a scan leaves of an earlier state of it. -/
structure Onward (own : Option EdgeId) (s t : Scan) : Prop where
  graph : s.graph.Grows t.graph
  kept : ∀ e, some e ≠ own → s.visitOf e ≠ .unvisited ∨ t.visitOf e = .unvisited →
    t.graph.edge e = s.graph.edge e ∧ t.survey.edge e = s.survey.edge e
  finished : ∀ e, some e ≠ own → s.visitOf e = .unvisited → t.visitOf e ≠ .inProgress
  out : ∀ n e, (s.graph.node n).producer = some e → some e ≠ own → s.visitOf e ≠ .unvisited →
    t.survey.node n = s.survey.node n
  leaf : ∀ n, (s.graph.node n).producer = none → (s.survey.node n).isStatted →
    t.survey.node n = s.survey.node n

namespace Onward

variable {own : Option EdgeId} {s t u : Scan}

theorem visitOf_eq (h : Onward own s t) {e : EdgeId} (hown : some e ≠ own)
    (he : s.visitOf e ≠ .unvisited) : t.visitOf e = s.visitOf e := by
  rw [visitOf, visitOf, (h.kept e hown (.inl he)).2]

/-- Work on an edge changes the graph by its dependency file, and the state of the edge and of its
outputs; apart from that, only files that were not looked at before and that nothing makes. -/
theorem of_survey (hgraph : s.graph.Grows t.graph)
    (hedge : ∀ e, some e ≠ own → t.graph.edge e = s.graph.edge e)
    (hstate : ∀ e, some e ≠ own → t.survey.edge e = s.survey.edge e)
    (hout : ∀ n e, (s.graph.node n).producer = some e → some e ≠ own →
      t.survey.node n = s.survey.node n)
    (hleaf : ∀ n, (s.graph.node n).producer = none → (s.survey.node n).isStatted →
      t.survey.node n = s.survey.node n) : Onward own s t where
  graph := hgraph
  kept e hown _ := ⟨hedge e hown, hstate e hown⟩
  finished e hown he := by rw [visitOf, hstate e hown, ← visitOf, he]; simp
  out n e hn hown _ := hout n e hn hown
  leaf := hleaf

theorem refl (own : Option EdgeId) (s : Scan) : Onward own s s where
  graph := .refl s.graph
  kept _ _ _ := ⟨rfl, rfl⟩
  finished e _ he := by rw [he]; simp
  out _ _ _ _ _ := rfl
  leaf _ _ _ := rfl

/-- Validations and faults that were met make no difference. -/
theorem of_same (own : Option EdgeId) (hgraph : t.graph = s.graph) (hsurvey : t.survey = s.survey) :
    Onward own s t :=
  .of_survey (by rw [hgraph]; exact .refl _) (fun _ _ => by rw [hgraph])
    (fun _ _ => by rw [hsurvey]) (fun _ _ _ _ => by rw [hsurvey]) fun _ _ _ => by rw [hsurvey]

theorem trans (h : Onward own s t) (h' : Onward own t u) : Onward own s u where
  graph := h.graph.trans h'.graph
  kept e hown he := by
    rcases he with he | he
    · obtain ⟨hedge, hstate⟩ := h.kept e hown (.inl he)
      obtain ⟨hedge', hstate'⟩ := h'.kept e hown (.inl (h.visitOf_eq hown he ▸ he))
      exact ⟨hedge'.trans hedge, hstate'.trans hstate⟩
    · obtain ⟨hedge', hstate'⟩ := h'.kept e hown (.inr he)
      have ht : t.visitOf e = .unvisited := by rw [visitOf, ← hstate']; exact he
      obtain ⟨hedge, hstate⟩ := h.kept e hown (.inr ht)
      exact ⟨hedge'.trans hedge, hstate'.trans hstate⟩
  finished e hown he := by
    by_cases ht : t.visitOf e = .unvisited
    · exact h'.finished e hown ht
    · rw [h'.visitOf_eq hown ht]
      exact h.finished e hown he
  out n e hn hown he := by
    have ht : t.visitOf e ≠ .unvisited := h.visitOf_eq hown he ▸ he
    rw [h'.out n e ((h.graph.producer n).trans hn) hown ht, h.out n e hn hown he]
  leaf n hn hstat := by
    have ht := h.leaf n hn hstat
    rw [h'.leaf n ((h.graph.producer n).trans hn) (ht ▸ hstat), ht]

/-- Scanning other edges is no work on `own`. -/
theorem weaken (h : Onward none s t) (own : Option EdgeId) : Onward own s t where
  graph := h.graph
  kept e _ := h.kept e (Option.some_ne_none e)
  finished e _ := h.finished e (Option.some_ne_none e)
  out n e hn _ := h.out n e hn (Option.some_ne_none e)
  leaf := h.leaf

/-- Work on an edge from the first look at it to the end is a step like those on other edges. -/
theorem complete {e : EdgeId} (h : Onward (some e) s t) (hs : s.visitOf e = .unvisited)
    (ht : t.visitOf e = .done) : Onward none s t where
  graph := h.graph
  kept d _ hd := by
    by_cases hde : d = e
    · subst hde
      rw [hs, ht] at hd
      simp at hd
    · exact h.kept d (by simpa using hde) hd
  finished d _ hd := by
    by_cases hde : d = e
    · subst hde; rw [ht]; simp
    · exact h.finished d (by simpa using hde) hd
  out n d hn _ hd := by
    by_cases hde : d = e
    · subst hde; exact absurd hs hd
    · exact h.out n d hn (by simpa using hde) hd
  leaf := h.leaf

end Onward

/-- The number of edges that were not looked at. -/
def unvisitedCount (s : Scan) : Nat :=
  s.graph.countEdges fun e => s.visitOf e = .unvisited

theorem unvisitedCount_pos (s : Scan) {e : Nat} (hlt : e < s.graph.edges.size)
    (he : s.visitOf e = .unvisited) : 0 < s.unvisitedCount :=
  Graph.countEdges_pos hlt he

theorem Onward.unvisitedCount_le {own : Option EdgeId} {s t : Scan} (h : Onward own s t)
    (hown : ∀ e, own = some e → t.visitOf e ≠ .unvisited) :
    t.unvisitedCount ≤ s.unvisitedCount := by
  refine Graph.countEdges_mono h.graph.edges_size fun e he => ?_
  have hne : some e ≠ own := fun heq => hown e heq.symm he
  rw [visitOf, ← (h.kept e hne (.inr he)).2]
  exact he

theorem Onward.unvisitedCount_lt {s t : Scan} {e : Nat} (h : Onward (some e) s t)
    (hlt : e < s.graph.edges.size) (hs : s.visitOf e = .unvisited) (ht : t.visitOf e ≠ .unvisited) :
    t.unvisitedCount < s.unvisitedCount := by
  refine Graph.countEdges_lt h.graph.edges_size (fun d hd => ?_) hlt ht hs
  have hne : some d ≠ some e := fun heq => ht (Option.some.inj heq ▸ hd)
  rw [visitOf, ← (h.kept d hne (.inr hd)).2]
  exact hd

end Rebuild.Scan
