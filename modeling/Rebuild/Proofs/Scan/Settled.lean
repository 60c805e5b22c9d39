import Mathlib.Data.List.Basic
import Rebuild.Proofs.Scan.Onward

/-!
# What a scan settles

When a scan is done with an edge, all that goes into it is known, its outputs are stale together
exactly if the state of its inputs and outputs says so, it is usable exactly if its inputs are and
nothing has to be done for it, and it does not depend on itself. All of this stays true while the
scan goes on.
-/

namespace Rebuild

/-- A file is made by an edge that has another one as an input. -/
def Graph.MadeFrom (g : Graph) (m n : NodeId) : Prop :=
  ∃ e, (g.node m).producer = some e ∧ n ∈ (g.edge e).ins

/-- One edge makes an input of another. -/
def Graph.Feeds (g : Graph) (p e : EdgeId) : Prop :=
  ∃ n ∈ (g.edge e).ins, (g.node n).producer = some p

theorem Graph.Linked.lt_of_madeFrom {g : Graph} (hg : g.Linked) {m n : NodeId}
    (h : Relation.ReflTransGen g.MadeFrom m n) (hm : m < g.nodes.size) : n < g.nodes.size := by
  cases h with
  | refl => exact hm
  | tail _ hstep =>
    obtain ⟨_, -, hin⟩ := hstep
    exact hg.lt_of_in hin

namespace Scan

/-- What the inputs of an edge come to that are not order-only. -/
def summary (g : Graph) (survey : Survey) (e : EdgeId) : InputSummary :=
  (g.edge e).nonOrderOnlyIns.foldl (fun sum n => sum.add (survey.node n)) ⟨false, none⟩

/-- Whether the outputs of an edge are stale: an input is, or, unless the edge only groups files, an
output itself. -/
def isStale (log : BuildLog) (g : Graph) (survey : Survey) (e : EdgeId) : Bool :=
  (summary g survey e).dirty || (!(g.edge e).isPhony &&
    (g.edge e).outs.any (isOutputStale log g survey e (summary g survey e).newest))

/-- Nothing has to be done for an edge: its outputs are not stale, or it groups nothing. -/
def isIdle (log : BuildLog) (g : Graph) (survey : Survey) (e : EdgeId) : Bool :=
  !(isStale log g survey e && !((g.edge e).isPhony && (g.edge e).ins.isEmpty))

/-- A scan is done with a file. -/
def Known (s : Scan) (n : NodeId) : Prop :=
  match (s.graph.node n).producer with
  | none => (s.survey.node n).isStatted
  | some e => s.visitOf e = .done

/-- What a scan found out about an edge that it is done with. -/
structure Settled (src : Sources) (s : Scan) (e : EdgeId) : Prop where
  heeded : Depfile.Heeded src.files s.graph e
  known : ∀ n ∈ (s.graph.edge e).ins, s.Known n
  dirty : ∀ n ∈ (s.graph.edge e).outs,
    (s.survey.node n).dirty = isStale src.log s.graph s.survey e
  ready : (s.survey.edge e).outputReady =
    (s.survey.inputsReady s.graph e && isIdle src.log s.graph s.survey e)
  founded : Acc s.graph.Feeds e

/-- What a scan found out about an edge when it was done with the edge, apart from what the
dependency file lists. -/
structure Closed (log : BuildLog) (s : Scan) (e : EdgeId) : Prop where
  known : ∀ n ∈ (s.graph.edge e).ins, s.Known n
  dirty : ∀ n ∈ (s.graph.edge e).outs,
    (s.survey.node n).dirty = isStale log s.graph s.survey e
  ready : (s.survey.edge e).outputReady =
    (s.survey.inputsReady s.graph e && isIdle log s.graph s.survey e)
  founded : Acc s.graph.Feeds e

theorem settled_iff {src : Sources} {s : Scan} {e : EdgeId} :
    Settled src s e ↔ Depfile.Heeded src.files s.graph e ∧ Closed src.log s e :=
  ⟨fun h => ⟨h.heeded, h.known, h.dirty, h.ready, h.founded⟩,
    fun ⟨h, h'⟩ => ⟨h, h'.known, h'.dirty, h'.ready, h'.founded⟩⟩

/-- A scan knows what it is done with, and did not touch what it was not at. -/
structure Sound (src : Sources) (s : Scan) : Prop where
  linked : s.graph.Linked
  fresh : ∀ e, s.visitOf e = .unvisited → (s.survey.edge e).depsLoaded = false
  settled : ∀ e, s.visitOf e = .done → Settled src s e

theorem known_of_leaf {s : Scan} {n : NodeId} (h : (s.graph.node n).producer = none) :
    s.Known n ↔ (s.survey.node n).isStatted := by
  rw [Known, h]

theorem known_of_producer {s : Scan} {n : NodeId} {e : EdgeId}
    (h : (s.graph.node n).producer = some e) : s.Known n ↔ s.visitOf e = .done := by
  rw [Known, h]

section Onward

variable {log : BuildLog} {own : Option EdgeId} {s t : Scan}

theorem Onward.visitOf_done (h : Onward own s t) (hown : ∀ e, own = some e → s.visitOf e ≠ .done)
    {e : EdgeId} (he : s.visitOf e = .done) : t.visitOf e = .done := by
  rw [h.visitOf_eq (fun heq => hown e heq.symm he) (by rw [he]; simp), he]

theorem Onward.node_eq (h : Onward own s t) (hown : ∀ e, own = some e → s.visitOf e ≠ .done)
    {n : NodeId} (hn : s.Known n) : t.survey.node n = s.survey.node n := by
  cases hp : (s.graph.node n).producer with
  | none => exact h.leaf n hp ((known_of_leaf hp).mp hn)
  | some e =>
    have he := (known_of_producer hp).mp hn
    exact h.out n e hp (fun heq => hown e heq.symm he) (by rw [he]; simp)

theorem Onward.known (h : Onward own s t) (hown : ∀ e, own = some e → s.visitOf e ≠ .done)
    {n : NodeId} (hn : s.Known n) : t.Known n := by
  cases hp : (s.graph.node n).producer with
  | none =>
    rw [known_of_leaf ((h.graph.producer n).trans hp), h.node_eq hown hn]
    exact (known_of_leaf hp).mp hn
  | some e =>
    rw [known_of_producer ((h.graph.producer n).trans hp)]
    exact h.visitOf_done hown ((known_of_producer hp).mp hn)

theorem Onward.isAvailable_eq (h : Onward own s t)
    (hown : ∀ e, own = some e → s.visitOf e ≠ .done) {n : NodeId} (hn : s.Known n) :
    t.survey.isAvailable t.graph n = s.survey.isAvailable s.graph n := by
  unfold Survey.isAvailable
  rw [h.graph.producer n]
  cases hp : (s.graph.node n).producer with
  | none => rfl
  | some e =>
    have he := (known_of_producer hp).mp hn
    have hkept := h.kept e (fun heq => hown e heq.symm he) (.inl (by rw [he]; simp))
    dsimp only
    rw [hkept.2]

theorem Onward.inputsReady_eq (h : Onward own s t)
    (hown : ∀ e, own = some e → s.visitOf e ≠ .done) {e : EdgeId}
    (hedge : t.graph.edge e = s.graph.edge e) (hknown : ∀ n ∈ (s.graph.edge e).ins, s.Known n) :
    t.survey.inputsReady t.graph e = s.survey.inputsReady s.graph e := by
  rw [Survey.inputsReady, Survey.inputsReady, hedge, Bool.eq_iff_iff, List.all_eq_true,
    List.all_eq_true]
  exact forall₂_congr fun n hn => by rw [h.isAvailable_eq hown (hknown n hn)]

theorem summary_congr {g g' : Graph} {survey survey' : Survey} {e : EdgeId}
    (hedge : g'.edge e = g.edge e)
    (hnode : ∀ n ∈ (g.edge e).nonOrderOnlyIns, survey'.node n = survey.node n) :
    summary g' survey' e = summary g survey e := by
  unfold summary
  rw [hedge]
  exact List.foldl_ext _ _ _ fun sum n hn => by rw [hnode n hn]

theorem isOutputStale_congr {g g' : Graph} {survey survey' : Survey} {e : EdgeId}
    {newest : Option Timestamp} {n : NodeId} (hg : g.Grows g')
    (hpath : (g'.node n).path = (g.node n).path)
    (hexists : (survey'.node n).existence = (survey.node n).existence)
    (hmtime : (survey'.node n).mtime = (survey.node n).mtime) :
    isOutputStale log g' survey' e newest n = isOutputStale log g survey e newest n := by
  unfold isOutputStale
  simp only [hg.edgeFlag, hg.command, hpath, hexists, hmtime]

theorem isStale_congr {g g' : Graph} {survey survey' : Survey} {e : EdgeId} (hg : g.Grows g')
    (hlinked : g.Linked) (hedge : g'.edge e = g.edge e)
    (hin : ∀ n ∈ (g.edge e).ins, survey'.node n = survey.node n)
    (hexists : ∀ n ∈ (g.edge e).outs, (survey'.node n).existence = (survey.node n).existence)
    (hmtime : ¬(g.edge e).isPhony → ∀ n ∈ (g.edge e).outs,
      (survey'.node n).mtime = (survey.node n).mtime) :
    isStale log g' survey' e = isStale log g survey e := by
  have hsum : summary g' survey' e = summary g survey e :=
    summary_congr hedge fun n hn => hin n (List.mem_append_left _ hn)
  unfold isStale
  rw [hsum, hedge]
  by_cases hphony : (g.edge e).isPhony
  · simp [hphony]
  · congr 2
    rw [Bool.eq_iff_iff, List.any_eq_true, List.any_eq_true]
    refine exists_congr fun n => and_congr_right fun hn => ?_
    have hlt := Graph.lt_of_producer ((hlinked.producer_iff n e).mpr hn)
    rw [isOutputStale_congr hg (hg.path n hlt) (hexists n hn) (hmtime hphony n hn)]

end Onward

/-! ## Keeping what is settled -/

section Keeping

variable {src : Sources} {own : Option EdgeId} {s t : Scan}

private theorem founded_onward {log : BuildLog}
    (hs : ∀ e, s.visitOf e = .done → Closed log s e) (h : Onward own s t)
    (hown : ∀ e, own = some e → s.visitOf e ≠ .done) {e : EdgeId} (he : s.visitOf e = .done) :
    Acc t.graph.Feeds e := by
  have hacc := (hs e he).founded
  induction hacc with
  | intro e _ ih =>
    refine Acc.intro e fun p hp => ?_
    obtain ⟨n, hn, hprod⟩ := hp
    rw [(h.kept e (fun heq => hown e heq.symm he) (.inl (by rw [he]; simp))).1] at hn
    rw [h.graph.producer] at hprod
    have hdone := (known_of_producer hprod).mp ((hs e he).known n hn)
    exact ih p ⟨n, hn, hprod⟩ hdone

/-- Edges that a scan is done with stay as they are. -/
theorem closed_onward {log : BuildLog} (hlinked : s.graph.Linked)
    (hs : ∀ e, s.visitOf e = .done → Closed log s e) (h : Onward own s t)
    (hown : ∀ e, own = some e → s.visitOf e ≠ .done) {e : EdgeId} (he : s.visitOf e = .done) :
    Closed log t e := by
  have hset := hs e he
  obtain ⟨hedge, hstate⟩ :=
    h.kept e (fun heq => hown e heq.symm he) (.inl (by rw [he]; simp))
  have hin : ∀ n ∈ (s.graph.edge e).ins, t.survey.node n = s.survey.node n :=
    fun n hn => h.node_eq hown (hset.known n hn)
  have hout : ∀ n ∈ (s.graph.edge e).outs, t.survey.node n = s.survey.node n := fun n hn =>
    h.node_eq hown ((known_of_producer ((hlinked.producer_iff n e).mpr hn)).mpr he)
  have hstale : isStale log t.graph t.survey e = isStale log s.graph s.survey e :=
    isStale_congr h.graph hlinked hedge hin (fun n hn => by rw [hout n hn])
      fun _ n hn => by rw [hout n hn]
  refine ⟨?_, ?_, ?_, founded_onward hs h hown he⟩
  · rw [hedge]
    exact fun n hn => h.known hown (hset.known n hn)
  · rw [hedge, hstale]
    exact fun n hn => by rw [hout n hn, hset.dirty n hn]
  · rw [hstate, hset.ready, h.inputsReady_eq hown hedge hset.known, isIdle, isIdle, hstale, hedge]

end Keeping

end Scan

end Rebuild
