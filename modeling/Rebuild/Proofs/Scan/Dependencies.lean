import Mathlib
import Rebuild.Proofs.Scan.Visit

/-!
# Dependencies that a dependency file lists

Loading a dependency file makes everything it lists an input of the edge. What was no input before
becomes an implicit one, and a scan takes it into account like an input of the manifest. What was an
input before stays what it was; so a file that was only an order-only input does not count for the
edge although its command reported that it was read.
-/

namespace Rebuild

namespace Timestamp

theorem isLater_latest_left (a b : Option Timestamp) : isLater a (latest a b) = false := by
  unfold latest
  by_cases h : isLater b a
  · rw [if_pos h]
    cases a <;> cases b <;> simp_all [isLater]
    exact Int.le_of_lt h
  · rw [if_neg h]
    cases a <;> simp [isLater]

theorem isLater_latest_right (a b : Option Timestamp) : isLater b (latest a b) = false := by
  unfold latest
  by_cases h : isLater b a
  · rw [if_pos h]
    cases b <;> simp [isLater]
  · rw [if_neg h]
    exact Bool.not_eq_true _ ▸ h

theorem isLater_trans {a b c : Option Timestamp} (hab : isLater a b = false)
    (hbc : isLater b c = false) : isLater a c = false := by
  cases a <;> cases b <;> cases c <;> simp_all [isLater]
  exact Int.le_trans hab hbc

end Timestamp

namespace Scan

/-- The summary takes a file into account: it is stale if the file is, and otherwise its newest time
is not older than that of the file. -/
def InputSummary.Covers (sum : InputSummary) (n : NodeState) : Prop :=
  (n.dirty → sum.dirty) ∧ (¬n.dirty → Timestamp.isLater n.mtime sum.newest = false)

theorem InputSummary.covers_add_self (sum : InputSummary) (n : NodeState) :
    (sum.add n).Covers n := by
  unfold InputSummary.add
  by_cases h : n.dirty
  · rw [if_pos h]
    exact ⟨fun _ => rfl, fun hn => absurd h hn⟩
  · rw [if_neg h]
    exact ⟨fun hn => absurd hn h, fun _ => Timestamp.isLater_latest_right ..⟩

theorem InputSummary.Covers.add {sum : InputSummary} {m : NodeState} (h : sum.Covers m)
    (n : NodeState) : (sum.add n).Covers m := by
  unfold InputSummary.add
  split
  · exact ⟨fun _ => rfl, h.2⟩
  · exact ⟨h.1, fun hm => Timestamp.isLater_trans (h.2 hm) (Timestamp.isLater_latest_left ..)⟩

private theorem covers_foldl (survey : Survey) (ids : List NodeId) (sum : InputSummary) :
    (∀ m, sum.Covers m → (ids.foldl (fun sum n => sum.add (survey.node n)) sum).Covers m) ∧
      ∀ n ∈ ids, (ids.foldl (fun sum n => sum.add (survey.node n)) sum).Covers (survey.node n) := by
  induction ids generalizing sum with
  | nil => exact ⟨fun _ h => h, by simp⟩
  | cons id ids ih =>
    obtain ⟨hkeep, hall⟩ := ih (sum.add (survey.node id))
    refine ⟨fun m hm => hkeep m (hm.add _), fun n hn => ?_⟩
    rcases List.mem_cons.mp hn with rfl | hn
    · exact hkeep _ (sum.covers_add_self _)
    · exact hall n hn

/-- All inputs that are not order-only are taken into account. -/
theorem covers_summary (g : Graph) (survey : Survey) {e : EdgeId} {n : NodeId}
    (hn : n ∈ (g.edge e).nonOrderOnlyIns) : (summary g survey e).Covers (survey.node n) :=
  (covers_foldl survey (g.edge e).nonOrderOnlyIns ⟨false, none⟩).2 n hn

/-- A stale input, or one that is newer than an output, makes the outputs stale. -/
theorem Settled.dirty_of_input {src : Sources} {s : Scan} {e : EdgeId} (h : Settled src s e)
    {n : NodeId} (hn : n ∈ (s.graph.edge e).nonOrderOnlyIns)
    (hcause : (s.survey.node n).dirty ∨ ((s.graph.edge e).isPhony = false ∧
      s.graph.edgeFlag e "restat" = false ∧ ∃ out ∈ (s.graph.edge e).outs,
        Timestamp.isLater (s.survey.node n).mtime (s.survey.node out).mtime)) :
    ∀ out ∈ (s.graph.edge e).outs, (s.survey.node out).dirty := by
  intro out hout
  rw [h.dirty out hout, isStale, Bool.or_eq_true]
  obtain ⟨hstale, hnewest⟩ := covers_summary s.graph s.survey hn
  by_cases hdirty : (s.survey.node n).dirty
  · exact .inl (hstale hdirty)
  obtain ⟨hphony, hrestat, older, holder, hlater⟩ := hcause.resolve_left hdirty
  have hnewer : Timestamp.isLater (summary s.graph s.survey e).newest
      (s.survey.node older).mtime := by
    by_contra hnot
    rw [Bool.not_eq_true] at hnot
    rw [Timestamp.isLater_trans (hnewest hdirty) hnot] at hlater
    cases hlater
  refine .inr ?_
  rw [hphony, Bool.not_false, Bool.true_and, List.any_eq_true]
  refine ⟨older, holder, ?_⟩
  unfold isOutputStale
  simp only [hrestat, hnewer]
  split <;> rfl

end Scan

variable {files : FileView} {g : Graph} {id : EdgeId}

/-- What a dependency file lists is an input once the file is loaded, and it counts like the inputs
that are not order-only, except if it was an order-only input, and nothing else, before. A scan that
is done with the edge takes those that count into account: each of them makes the outputs stale if
it is stale itself or, unless the command may leave older outputs, newer than one of them. -/
theorem Depfile.dependencies_count {depfile : Depfile} {output : String} {rest : List String}
    (hg : g.Linked) (hvar : g.edgeVar id "depfile" ≠ "")
    (hread : Depfile.read files (Path.canonical (g.edgeVar id "depfile")) = .ok depfile)
    (houtputs : depfile.outputs = output :: rest) (hout : output ∈ g.paths (g.edge id).outs) :
    (∃ g', Depfile.load files g id = .ok g' ∧ ∀ path ∈ depfile.deps, ∃ n,
      g'.findNode? path = some n ∧ n ∈ (g'.edge id).ins ∧
        (n ∈ (g'.edge id).nonOrderOnlyIns ↔
          n ∈ (g.edge id).nonOrderOnlyIns ∨ n ∉ (g.edge id).orderOnlyIns)) ∧
    ∀ log nodes validations found,
      Scan.all ⟨files, log⟩ nodes (.start g default) = .ok validations found →
      (found.survey.edge id).visit = .done → ∀ path ∈ depfile.deps, ∃ n,
        found.graph.findNode? path = some n ∧ n ∈ (found.graph.edge id).ins ∧
        (n ∈ (found.graph.edge id).nonOrderOnlyIns ↔
          n ∈ (g.edge id).nonOrderOnlyIns ∨ n ∉ (g.edge id).orderOnlyIns) ∧
        (n ∈ (found.graph.edge id).nonOrderOnlyIns →
          ((found.survey.node n).dirty ∨
            ((g.edge id).isPhony = false ∧ g.edgeFlag id "restat" = false ∧
              ∃ out ∈ (g.edge id).outs, Timestamp.isLater (found.survey.node n).mtime
                (found.survey.node out).mtime)) →
          ∀ out ∈ (g.edge id).outs, (found.survey.node out).dirty) := by
  have hlists : ∀ path ∈ depfile.deps, Lists files g id path := fun path hpath =>
    ⟨hvar, depfile, output, rest, hread, houtputs, hout, hpath⟩
  constructor
  · obtain ⟨hadds, hall⟩ := foldl_addDep_adds hg (lt_of_mem_outs hout) depfile.deps
    refine ⟨_, load_ok hvar hread houtputs hout, fun path hpath => ?_⟩
    obtain ⟨n, hfind, hn⟩ := hall path hpath
    exact ⟨n, hfind, hn, hadds.grows.mem_nonOrderOnlyIns_iff hn⟩
  · intro log nodes validations found hscan hdone path hpath
    obtain ⟨hsound, honward, -⟩ := Scan.all_ok (.start hg) hscan
    have hgrows : g.Grows found.graph := honward.graph
    have hsettled := hsound.settled id hdone
    obtain ⟨n, hfind, hn⟩ :=
      hsettled.heeded path ((lists_congr hgrows hg path).mpr (hlists path hpath))
    refine ⟨n, hfind, hn, hgrows.mem_nonOrderOnlyIns_iff hn, fun hcounts hcause => ?_⟩
    rw [← hgrows.outs id, ← hgrows.isPhony id, ← hgrows.edgeFlag id] at hcause
    rw [← hgrows.outs id]
    exact hsettled.dirty_of_input hcounts hcause

namespace Depfile

/-- An object file is made from a source and waits for a header that is generated. -/
def headerGraph : Graph where
  scopes := .initial
  nodes := #[⟨"a.o", some 0, [], [], false⟩, ⟨"a.c", none, [0], [], false⟩,
    ⟨"gen.h", none, [0], [], false⟩]
  edges := #[⟨.rule 0, none, Scopes.root, [0], [], [1], [], [2], [], none⟩]
  rules := #[⟨"cc", ⟨[("depfile", .literal "a.o.d")]⟩⟩]
  pools := #[]
  defaults := []

/-- The compiler reports that it read the header. -/
def headerFiles : FileView where
  stat _ := .ok none
  read _ := .ok (Utf8.encode "a.o: a.c gen.h".toList)

theorem dependencies_count_header :
    ∃ g', load headerFiles headerGraph 0 = .ok g' ∧ ∀ path ∈ ["a.c", "gen.h"], ∃ n,
      g'.findNode? path = some n ∧ n ∈ (g'.edge 0).ins ∧
        (n ∈ (g'.edge 0).nonOrderOnlyIns ↔ n ∈ [1] ∨ n ∉ [2]) :=
  (dependencies_count (g := headerGraph) (by decide) (by cbv)
    (show read headerFiles _ = .ok ⟨["a.o"], ["a.c", "gen.h"]⟩ by cbv) rfl (by decide)).1

end Depfile

end Rebuild
