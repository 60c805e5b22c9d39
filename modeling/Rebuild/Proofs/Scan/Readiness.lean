import Rebuild.Proofs.Scan.Extent
import Rebuild.Proofs.Schedule.Cascade

/-!
# When outputs can be used

A scan marks an edge as ready if its outputs can be used as they are. The mark is set when the edge
is opened, and taken back when an input turns out not to be ready or when the edge itself has
something to do. In the end it says that nothing is stale in all that leads to the edge, through
inputs of every kind, those that only order edges and those that dependency files list included.
-/

namespace Rebuild.Scan

open Relation (ReflTransGen)

variable {src : Sources} {log : BuildLog} {s t : Scan} {nodes found : List NodeId} {e d : EdgeId}

theorem inputsReady_iff_feeds {g : Graph} {survey : Survey} :
    survey.inputsReady g e ↔ ∀ d, g.Feeds d e → (survey.edge d).outputReady := by
  rw [Schedule.inputsReady_iff]
  exact ⟨fun h d ⟨n, hn, hd⟩ => h n hn d hd, fun h n hn d hd => h d ⟨n, hn, hd⟩⟩

/-- Only what is stale has something to do, for a group without members never is. -/
theorem isIdle_eq (log : BuildLog) (g : Graph) (survey : Survey) (e : EdgeId) :
    isIdle log g survey e = !isStale log g survey e := by
  by_cases hgroup : (g.edge e).isPhony && (g.edge e).ins.isEmpty
  · obtain ⟨hphony, hins⟩ := Bool.and_eq_true_iff.mp hgroup
    have hnone : (g.edge e).nonOrderOnlyIns = [] :=
      List.append_eq_nil_iff.mp (List.isEmpty_iff.mp hins) |>.1
    have hstale : isStale log g survey e = false := by
      rw [isStale, summary, hnone, hphony]
      rfl
    rw [isIdle, hstale]
    rfl
  · rw [Bool.not_eq_true] at hgroup
    rw [isIdle, hgroup, Bool.not_false, Bool.and_true]

/-- An edge that a scan is done with is ready if what feeds it is and it has nothing to do. -/
theorem Closed.outputReady_iff (h : Closed log s e) : (s.survey.edge e).outputReady ↔
    (∀ d, s.graph.Feeds d e → (s.survey.edge d).outputReady) ∧
      ¬isStale log s.graph s.survey e := by
  rw [h.ready, Bool.and_eq_true, inputsReady_iff_feeds, isIdle_eq, Bool.not_eq_true',
    Bool.not_eq_true]

/-- The outputs of an edge are stale together. -/
theorem Closed.isStale_iff (h : Closed log s e) (houts : (s.graph.edge e).outs ≠ []) :
    (isStale log s.graph s.survey e ↔ ∀ out ∈ (s.graph.edge e).outs, (s.survey.node out).dirty) ∧
      (¬isStale log s.graph s.survey e ↔
        ∀ out ∈ (s.graph.edge e).outs, ¬(s.survey.node out).dirty) := by
  obtain ⟨out, hout⟩ := List.exists_mem_of_ne_nil _ houts
  constructor
  · exact ⟨fun hstale m hm => (h.dirty m hm).trans hstale,
      fun hall => h.dirty out hout ▸ hall out hout⟩
  · exact ⟨fun hclean m hm => h.dirty m hm ▸ hclean, fun hall => h.dirty out hout ▸ hall out hout⟩

/-- A scan that is done with an edge is done with all that feeds it. -/
theorem Orderly.done_of_feeds (hs : Orderly log s) (he : s.visitOf e = .done)
    (h : ReflTransGen s.graph.Feeds d e) : s.visitOf d = .done := by
  induction h using ReflTransGen.head_induction_on with
  | refl => exact he
  | head hstep _ ih =>
    obtain ⟨n, hn, hprod⟩ := hstep
    exact (known_of_producer hprod).mp ((hs.closed _ ih).known n hn)

/-- Whether a scan that is done with an edge found it ready is told by all that leads to it. -/
theorem Orderly.outputReady_iff (hs : Orderly log s) (he : s.visitOf e = .done) :
    (s.survey.edge e).outputReady ↔
      ∀ d, ReflTransGen s.graph.Feeds d e → ¬isStale log s.graph s.survey d := by
  have hfounded := (hs.closed e he).founded
  induction hfounded with
  | intro e _ ih =>
    have hready : ∀ p, s.graph.Feeds p e → ((s.survey.edge p).outputReady ↔
        ∀ d, ReflTransGen s.graph.Feeds d p → ¬isStale log s.graph s.survey d) := fun p hp =>
      ih p hp (hs.done_of_feeds he (.single hp))
    rw [(hs.closed e he).outputReady_iff]
    constructor
    · rintro ⟨hfed, hclean⟩ d hd
      rcases hd.cases_tail with rfl | ⟨p, hdp, hp⟩
      · exact hclean
      · exact (hready p hp).mp (hfed p hp) d hdp
    · intro hall
      exact ⟨fun p hp => (hready p hp).mpr fun d hd => hall d (hd.tail hp), hall e .refl⟩

/-- A scan of targets and their validations that succeeds has come to all edges that lead to them.
For every edge that it has come to: the inputs are those that it had and those that its dependency
file lists; it is ready exactly if neither itself nor any edge that leads to it has stale outputs;
and if it is not ready, its outputs are stale or an edge that makes an input is not ready. -/
theorem ready_iff_nothing_stale (hs : s.Fresh) (hlt : ∀ n ∈ nodes, n < s.graph.nodes.size)
    (h : all src nodes s = .ok found t) :
    (∀ m ∈ nodes ++ found, ∀ n, ReflTransGen t.graph.MadeFrom m n →
      ∀ e, (t.graph.node n).producer = some e → t.visitOf e = .done) ∧
    ∀ e, t.visitOf e ≠ .unvisited →
      (∀ path, path ∈ t.graph.paths (t.graph.edge e).ins ↔ Uses src.files s e path) ∧
      ((t.survey.edge e).outputReady ↔ ∀ d, ReflTransGen t.graph.Feeds d e →
        ∀ out ∈ (t.graph.edge d).outs, ¬(t.survey.node out).dirty) ∧
      (¬(t.survey.edge e).outputReady →
        (∀ out ∈ (t.graph.edge e).outs, (t.survey.node out).dirty) ∨
          ∃ d, t.graph.Feeds d e ∧ ¬(t.survey.edge d).outputReady) := by
  have hall := all_completes src hs hlt
  rw [h] at hall
  obtain ⟨hcomplete, hknown, -⟩ := hall
  have ht := hcomplete.orderly hs
  have hstale : ∀ {d}, t.visitOf d = .done → _ := fun {d} hd =>
    (ht.closed d hd).isStale_iff (by
      obtain ⟨out, hout, -⟩ := hcomplete.edge d hd
      rw [(hcomplete.grows hs).outs]
      exact List.ne_nil_of_mem hout)
  refine ⟨fun m hm n hmade e he =>
    (known_of_producer he).mp (ht.known_madeFrom (hknown m hm) hmade), fun e he => ?_⟩
  have hdone := hcomplete.done_of_visited he
  refine ⟨hcomplete.course.mem_paths_ins_iff hs.linked (hs.edges e) he, ?_, fun hready => ?_⟩
  · rw [ht.outputReady_iff hdone]
    exact forall₂_congr fun d hd => (hstale (ht.done_of_feeds hdone hd)).2
  · rw [(ht.closed e hdone).outputReady_iff, not_and_or, not_not, (hstale hdone).1] at hready
    refine hready.symm.imp_right fun hfed => ?_
    push Not at hfed
    exact hfed

/-- The scan of the group with its validations, of which it has none. -/
def groupScanAll : Scan :=
  match all groupSources [0] (.start groupGraph default) with
  | .ok _ s | .error _ s => s

/-- The group is not ready, for the object file in it is stale. -/
theorem ready_iff_nothing_stale_group : groupScanAll.visitOf 0 ≠ .unvisited ∧
    ¬∀ d, ReflTransGen groupScanAll.graph.Feeds d 0 →
      ∀ out ∈ (groupScanAll.graph.edge d).outs, ¬(groupScanAll.survey.node out).dirty := by
  have hscan : all groupSources [0] (.start groupGraph default) = .ok [] groupScanAll := by cbv
  have hvisit : groupScanAll.visitOf 0 = .done := by cbv
  have hready : (groupScanAll.survey.edge 0).outputReady = false := by cbv
  have hcome : groupScanAll.visitOf 0 ≠ .unvisited := by simp [hvisit]
  refine ⟨hcome, fun hall => ?_⟩
  have hiff := ((ready_iff_nothing_stale (.start (by decide)) (by decide) hscan).2 0 hcome).2.1
  rw [hiff.mpr hall] at hready
  cases hready

end Rebuild.Scan
