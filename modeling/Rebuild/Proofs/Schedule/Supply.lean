import Rebuild.Proofs.Scan.Renewal
import Rebuild.Proofs.Schedule.Grounded

/-!
# What a schedule has to find

An edge that is found from targets is needed if its outputs cannot be used, since then no edge that
depends on it can be used either. So a build can be scheduled only if the files are there that such
an edge uses. What an edge that can be used lacks is not asked for: it can only be an order-only
input, which makes nothing stale. Where all targets can be used, a schedule is empty.
-/

namespace Rebuild

/-- An edge that groups nothing can be used although it is stale, no other one can. -/
theorem Scan.Settled.outputReady_of_stale {src : Scan.Sources} {found : Scan} {e : EdgeId}
    (h : Scan.Settled src found e) (hstale : Scan.isStale src.log found.graph found.survey e)
    (hgroup : (found.graph.edge e).isPhony → (found.graph.edge e).ins ≠ []) :
    (found.survey.edge e).outputReady = false := by
  have hbusy : ((found.graph.edge e).isPhony && (found.graph.edge e).ins.isEmpty) = false := by
    rw [Bool.and_eq_false_imp, List.isEmpty_eq_false_iff]
    exact hgroup
  rw [h.ready, Scan.isIdle, hstale, hbusy]
  simp

namespace Schedule

variable {g : Graph} {src : Scan.Sources} {found : Scan} {scanned targets validations : List NodeId}
  {s : Schedule} {e : EdgeId} {n : NodeId}

/-! ## What is asked for -/

/-- An edge that is found from targets and cannot be used is needed. -/
theorem needed_of_reached (hg : g.Linked) (hscan : Scan.Scanned src g scanned found)
    (he : found.graph.Reached targets e) (hready : ¬(found.survey.edge e).outputReady) :
    Needed found.graph found.survey targets e := by
  obtain ⟨n, hn, first, hfirst, hreach⟩ := he
  induction hreach using Relation.ReflTransGen.head_induction_on with
  | refl => exact .target hn hfirst hready
  | head hstep _ ih =>
    obtain ⟨m, hm, hprod⟩ := hstep
    refine .input (ih fun hlater => hready ?_) hm hprod hready
    exact inputsReady_iff.mp (hscan.inputsReady hg hlater) m hm _ hprod

/-- So is an edge with a command whose outputs are stale. -/
theorem needed_of_dirty (hg : g.Linked) (hscan : Scan.Scanned src g scanned found)
    (hdone : found.visitOf e = .done) (he : found.graph.Reached targets e)
    (hcommand : (found.graph.edge e).isPhony = false) (hn : n ∈ (found.graph.edge e).outs)
    (hdirty : (found.survey.node n).dirty) : Needed found.graph found.survey targets e := by
  have hset := (hscan.sound hg).1.settled e hdone
  rw [hset.dirty n hn] at hdirty
  refine needed_of_reached hg hscan he ?_
  rw [hset.outputReady_of_stale hdirty (by simp [hcommand])]
  simp

/-- If a build can be scheduled, files are missing only where they are order-only inputs of edges
that can be used without them. -/
theorem of_lacking (hg : g.Linked) (hscan : Scan.Scanned src g (targets ++ validations) found)
    (hschedule : Program.schedule found targets validations = .ok s)
    (he : found.graph.Reached (targets ++ validations) e) (hn : n ∈ (found.graph.edge e).ins)
    (hlacking : Lacking found n) :
    (found.survey.edge e).outputReady ∧ n ∉ (found.graph.edge e).nonOrderOnlyIns := by
  obtain ⟨hsound, hknown⟩ := hscan.sound hg
  have hready : (found.survey.edge e).outputReady := by
    by_contra hnot
    have hsome := ((schedule_ready hsound hknown hschedule).registered e).mpr
      (needed_of_reached hg hscan he hnot)
    exact (schedule_supplied hsound hknown hschedule).2 e hsome n hn hlacking
  refine ⟨hready, fun hmem => ?_⟩
  have hstale : Scan.isStale src.log found.graph found.survey e := by
    rw [Scan.isStale, Scan.dirty_summary.mpr ⟨n, hmem, hlacking.2.2⟩, Bool.true_or]
  rw [(hsound.settled e (hscan.done_of_reached hg he)).outputReady_of_stale hstale
    fun _ => List.ne_nil_of_mem hn] at hready
  cases hready

/-! ## Nothing to do -/

/-- A file that can be used is not asked for. -/
theorem want_of_usable (hleaf : (g.node n).producer = none → ¬(s.survey.node n).dirty)
    (hmade : ∀ e, (g.node n).producer = some e → (s.survey.edge e).outputReady) (depth : Nat)
    (neededBy : Option NodeId) : s.want g depth neededBy n = s := by
  rw [want.eq_def]
  dsimp only
  cases hp : (g.node n).producer with
  | none =>
    dsimp only
    rw [needLeaf, if_neg (by simp [hleaf hp])]
  | some e =>
    dsimp only
    rw [if_pos (hmade e hp)]

/-- Targets that can be used leave a schedule empty. -/
theorem schedule_of_usable (hleaf : ∀ n ∈ targets ++ validations,
      (found.graph.node n).producer = none → ¬(found.survey.node n).dirty)
    (hmade : ∀ n ∈ targets ++ validations, ∀ e, (found.graph.node n).producer = some e →
      (found.survey.edge e).outputReady) :
    Program.schedule found targets validations = .ok (.start found.survey) := by
  have hadd : ∀ more ⊆ targets ++ validations,
      (start found.survey).addTargets found.graph more = .ok (.start found.survey) := by
    intro more hmore
    have hfold : more.foldl (fun s n => s.want found.graph found.graph.edges.size none n)
        (start found.survey) = start found.survey := by
      induction more with
      | nil => rfl
      | cons n more ih =>
        obtain ⟨hn, hmore⟩ := List.cons_subset.mp hmore
        rw [List.foldl_cons, want_of_usable (hleaf n hn) (hmade n hn), ih hmore]
    rw [addTargets, hfold]
    rfl
  exact schedule_eq_ok.mpr ⟨_, hadd targets (List.subset_append_left _ _),
    hadd validations (List.subset_append_right _ _)⟩

end Schedule

end Rebuild
