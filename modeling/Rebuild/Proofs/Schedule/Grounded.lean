import Rebuild.Proofs.Schedule.Rest

/-!
# What can be used stands on what can be used

Along a build an edge counts as usable only if its inputs do, and never while it is registered. So
what was taken from the queue has its inputs, and what depends on an edge that has not finished, in
however many steps, was not taken and is no more usable than that edge.

After a failure nothing is taken from the queue any more, and an edge whose command has failed never
becomes usable.
-/

namespace Rebuild

/-- After scans, the outputs of an edge can be used only if its inputs can. -/
theorem Scan.Scanned.inputsReady {src : Scan.Sources} {g : Graph} (hg : g.Linked)
    {scanned : List NodeId} {found : Scan} (h : Scan.Scanned src g scanned found) {e : EdgeId}
    (he : (found.survey.edge e).outputReady) : found.survey.inputsReady found.graph e := by
  have honward := h.onward hg
  have hfresh : (Scan.start g default).visitOf e = .unvisited :=
    congrArg EdgeState.visit (Table.get_default e)
  cases hvisit : found.visitOf e with
  | unvisited =>
    rw [(honward.kept e (by simp) (.inr hvisit)).2] at he
    rw [show (Scan.start g default).survey.edge e = default from Table.get_default e] at he
    cases he
  | inProgress => exact absurd hvisit (honward.finished e (by simp) hfresh)
  | done =>
    rw [((h.sound hg).1.settled e hvisit).ready, Bool.and_eq_true] at he
    exact he.1

namespace Schedule

variable {g : Graph} {start s t : Schedule} {events : List Event} {jobs : Nat} {event : Event}

/-! ## Usable edges -/

/-- An edge can be used only if its inputs can, and not while it is registered. -/
structure Grounded (g : Graph) (s : Schedule) : Prop where
  inputs : ∀ e, (s.survey.edge e).outputReady → s.survey.inputsReady g e
  registered : ∀ e, (s.phase e).isSome → (s.survey.edge e).outputReady = false

theorem Ready.grounded {src : Scan.Sources} (hg : g.Linked) {scanned targets : List NodeId}
    {found : Scan} (hscan : Scan.Scanned src g scanned found) (h : Ready src found targets s) :
    Grounded found.graph s where
  inputs e he := by
    rw [h.planned.survey] at he ⊢
    exact hscan.inputsReady hg he
  registered e he := by
    rw [h.planned.survey]
    exact (h.planned.of_isSome he).2.2.1

namespace Grounded

/-- Only phases and readiness matter. -/
theorem congr (h : Grounded g s) (hphases : t.phases = s.phases)
    (hedges : t.survey.edges = s.survey.edges) : Grounded g t := by
  have hphase : ∀ e, t.phase e = s.phase e := fun e =>
    congrArg (fun phases => Table.get phases e) hphases
  have hedge : ∀ e, t.survey.edge e = s.survey.edge e := fun e =>
    congrArg (fun edges => Table.get edges e) hedges
  refine ⟨fun e he => ?_, fun e he => ?_⟩
  · rw [inputsReady_iff]
    simp only [hedge] at he ⊢
    exact inputsReady_iff.mp (h.inputs e he)
  · rw [hedge]
    exact h.registered e (hphase e ▸ he)

/-- An edge finishes whose inputs can be used, and others after it. -/
theorem finish (h : Grounded g s) {id : Nat} (hid : id < g.edges.size)
    (hinputs : s.survey.inputsReady g id) : Grounded g (s.finish g id) := by
  have hfate := finish_fate hid s
  refine ⟨fun e he => ?_, fun e he => ?_⟩
  · rcases hfate e with ⟨rfl, -⟩ | ⟨-, ⟨-, hedge, -⟩ | ⟨-, -, hin, -, -⟩ | ⟨-, -, hin, -, -⟩⟩
    · exact finish_inputsReady hid hinputs
    · exact finish_inputsReady hid (h.inputs e (hedge ▸ he))
    · exact hin
    · exact hin
  · rcases hfate e with ⟨-, hp, -⟩ | ⟨-, ⟨hp, hedge, -⟩ | ⟨hw, -, -, hedge, -⟩ | ⟨-, hp, -, -, -⟩⟩
    · rw [hp] at he; cases he
    · rw [hedge]
      exact h.registered e (hp ▸ he)
    · rw [hedge]
      exact h.registered e (by rw [hw]; rfl)
    · rw [hp] at he; cases he

/-- Every move keeps it so. -/
theorem moves (hs : Grounded g s) (h : Flow g start events s) (hmoves : Moves g jobs s event t) :
    Grounded g t := by
  have hqueued : ∀ e, s.phase e = some .queued → e < g.edges.size ∧ s.survey.inputsReady g e :=
    fun e he => ⟨h.tracked.lt e (by rw [he]; rfl), h.tracked.queued e he⟩
  cases hmoves with
  | @passed u id skipped _ htakes _ =>
    obtain ⟨hlt, hinputs⟩ := hqueued id (h.ledger.of_takes htakes).1
    have hu : Grounded g u := hs.congr (by rw [htakes.rest]) (by rw [htakes.rest])
    exact hu.finish hlt (by rwa [htakes.rest])
  | @started u id skipped _ htakes _ => exact hs.congr (by rw [htakes.rest]) (by rw [htakes.rest])
  | @finished u id survey hwaits hid hedges =>
    obtain ⟨hlt, hinputs⟩ := hqueued id (h.ledger.busy id (hwaits.running ▸ hid))
    have hedges' : survey.edges = s.survey.edges := by rw [hedges, hwaits.survey]
    have hu : Grounded g { u.stopped g id with survey := survey } := by
      refine hs.congr ?_ hedges'
      show (u.stopped g id).phases = s.phases
      rw [stopped_frame]
      exact hwaits.phases
    refine hu.finish hlt (inputsReady_iff.mpr fun n hn p hp => ?_)
    show (Table.get survey.edges p).outputReady
    rw [hedges']
    exact inputsReady_iff.mp hinputs n hn p hp
  | @failed u id hwaits hid =>
    refine hs.congr ?_ ?_
    · show (u.stopped g id).phases = s.phases
      rw [stopped_frame]
      exact hwaits.phases
    · show (u.stopped g id).survey.edges = s.survey.edges
      rw [stopped_frame, hwaits.survey]

/-- What goes into an edge that can be used can be used. -/
theorem of_feeds (h : Grounded g s) {p e : EdgeId} (hp : g.Feeds p e)
    (he : (s.survey.edge e).outputReady) : (s.survey.edge p).outputReady := by
  obtain ⟨n, hn, hprod⟩ := hp
  exact inputsReady_iff.mp (h.inputs e he) n hn p hprod

theorem of_reflTransGen (h : Grounded g s) {p e : EdgeId}
    (hp : Relation.ReflTransGen g.Feeds p e) (he : (s.survey.edge e).outputReady) :
    (s.survey.edge p).outputReady := by
  induction hp using Relation.ReflTransGen.head_induction_on with
  | refl => exact he
  | head hstep _ ih => exact h.of_feeds hstep ih

/-- Everything that goes into an edge whose inputs can be used can be used. -/
theorem of_madeFrom (h : Grounded g s) {e : EdgeId} (hinputs : s.survey.inputsReady g e)
    {i m : NodeId} (hi : i ∈ (g.edge e).ins) (hm : Relation.ReflTransGen g.MadeFrom i m)
    {p : EdgeId} (hp : (g.node m).producer = some p) : (s.survey.edge p).outputReady := by
  induction hm generalizing p with
  | refl => exact inputsReady_iff.mp hinputs i hi p hp
  | tail _ hstep ih =>
    obtain ⟨d, hd, hin⟩ := hstep
    exact inputsReady_iff.mp (h.inputs d (ih hd)) _ hin p hp

/-- What was taken from the queue has its inputs. -/
theorem of_taken (hs : Grounded g s) (h : Flow g start events s) {e : EdgeId}
    (he : e ∈ takenEdges events) : s.survey.inputsReady g e := by
  have hplaced := h.ledger.placed e
  have hpos := List.count_pos_iff.mpr he
  split at hplaced
  · next hcases =>
    rcases hcases with hqueued | ⟨hnone, hstale⟩
    · exact h.tracked.queued e hqueued
    · exact hs.inputs e (h.tracked.done e hstale.isSome hnone)
  · omega

/-- An edge that depends on one that cannot be used was not taken from the queue. -/
theorem not_taken (hs : Grounded g s) (h : Flow g start events s) {p e : EdgeId}
    (hp : Relation.TransGen g.Feeds p e) (hnot : (s.survey.edge p).outputReady = false) :
    e ∉ takenEdges events := by
  intro he
  obtain ⟨d, hd, n, hn, hprod⟩ := Relation.TransGen.tail'_iff.mp hp
  have hready := inputsReady_iff.mp (hs.of_taken h he) n hn d hprod
  rw [hs.of_reflTransGen hd hready] at hnot
  cases hnot

end Grounded

/-! ## Commands that stop -/

/-- How many commands failed. -/
def failures (events : List Event) : Nat :=
  events.countP fun event => event matches .failed _

theorem mem_startedEdges {events : List Event} {e : EdgeId} :
    e ∈ startedEdges events ↔ .started e ∈ events := by
  refine List.mem_filterMap.trans ⟨?_, fun he => ⟨_, he, rfl⟩⟩
  rintro ⟨event, hevent, hid⟩
  cases event <;> cases hid
  exact hevent

theorem count_stoppedEdges (events : List Event) (e : EdgeId) : (stoppedEdges events).count e =
    events.count (.finished e) + events.count (.failed e) := by
  induction events using List.reverseRecOn with
  | nil => rfl
  | append_singleton events event ih =>
    rw [stoppedEdges_append, List.count_append, List.count_append, List.count_append, ih]
    cases event <;> simp [Event.stopped?, List.count_singleton] <;> omega

namespace Ledger

variable {hole : Option EdgeId}

theorem count_stopped_le (h : Ledger g start hole events s) (e : EdgeId) :
    s.running.count e + (stoppedEdges events).count e ≤ 1 := by
  rw [← h.running]
  exact List.nodup_iff_count_le_one.mp h.startedEdges_nodup e

theorem count_finished_le (h : Ledger g start hole events s) (e : EdgeId) :
    events.count (.finished e) ≤ 1 := by
  have hle := h.count_stopped_le e
  rw [count_stoppedEdges] at hle
  omega

/-- Only what was started stops. -/
theorem mem_started_of_stopped (h : Ledger g start hole events s) {event : Event} {e : EdgeId}
    (hevent : event ∈ events) (he : event.stopped? = some e) : .started e ∈ events := by
  have hrunning := h.running e
  have hpos : 0 < (stoppedEdges events).count e :=
    List.count_pos_iff.mpr (List.mem_filterMap.mpr ⟨event, hevent, he⟩)
  exact mem_startedEdges.mp (List.count_pos_iff.mp (by omega))

/-- A command that has failed has not finished. -/
theorem not_finished_of_failed (h : Ledger g start hole events s) {e : EdgeId}
    (he : .failed e ∈ events) : .finished e ∉ events := by
  intro hfinished
  have hle := h.count_stopped_le e
  have hpos := List.count_pos_iff.mpr he
  have hpos' := List.count_pos_iff.mpr hfinished
  rw [count_stoppedEdges] at hle
  omega

/-- A command that runs was started and has not stopped. -/
theorem of_running (h : Ledger g start hole events s) {e : EdgeId} (he : e ∈ s.running) :
    .started e ∈ events ∧ .finished e ∉ events ∧ .failed e ∉ events := by
  have hrunning := h.running e
  have hle := h.count_stopped_le e
  have hpos := List.count_pos_iff.mpr he
  rw [count_stoppedEdges] at hle
  refine ⟨mem_startedEdges.mp (List.count_pos_iff.mp (by omega)), ?_, ?_⟩ <;>
    exact List.count_eq_zero.mp (by omega)

end Ledger

namespace Flow

/-- What was taken from the queue was registered to be run. -/
theorem stale_of_taken (h : Flow g start events s) {e : EdgeId} (he : e ∈ takenEdges events) :
    Stale start e := by
  have hplaced := h.ledger.placed e
  have hpos := List.count_pos_iff.mpr he
  split at hplaced
  · next hcases =>
    rcases hcases with hqueued | ⟨-, hstale⟩
    · exact h.tracked.stale e (.inr hqueued)
    · exact hstale
  · omega

/-- An edge that was registered to be run becomes usable only by passing or finishing. -/
theorem completed_of_ready (hstart : Grounded g start) (h : Flow g start events s) {e : EdgeId}
    (hstale : Stale start e) (he : (s.survey.edge e).outputReady) : Completed events e := by
  rcases h.tracked.origin e he with hbefore | hcompleted | ⟨hclean, -⟩
  · rw [hstart.registered e hstale.isSome] at hbefore
    cases hbefore
  · exact hcompleted
  · simp [Stale, hclean] at hstale

/-- A command that was started makes its edge usable only by finishing. -/
theorem finished_of_ready (hstart : Grounded g start) (h : Flow g start events s) {e : EdgeId}
    (hstarted : .started e ∈ events) (he : (s.survey.edge e).outputReady) :
    .finished e ∈ events := by
  have hstale := h.stale_of_taken
    ((startedEdges_sublist events).subset (mem_startedEdges.mpr hstarted))
  refine (h.completed_of_ready hstart hstale he).resolve_left fun hpassed => ?_
  have hphony := h.ledger.phony e hpassed
  rw [h.ledger.commands e hstarted] at hphony
  cases hphony

/-- An edge whose command has failed stays unusable. -/
theorem not_ready_of_failed (hstart : Grounded g start) (h : Flow g start events s) {e : EdgeId}
    (he : .failed e ∈ events) : (s.survey.edge e).outputReady = false := by
  by_contra hready
  rw [Bool.not_eq_false] at hready
  have hstarted := h.ledger.mem_started_of_stopped he rfl
  exact h.ledger.not_finished_of_failed he (h.finished_of_ready hstart hstarted hready)

end Flow

/-! ## After a failure -/

/-- Failures are counted. -/
theorem failed_moves (hs : s.failed = start.failed + failures events)
    (hmoves : Moves g jobs s event t) : t.failed = start.failed + failures (events ++ [event]) := by
  have hfinish : ∀ id (u : Schedule), (u.finish g id).failed = u.failed := fun id u => by
    obtain ⟨more, hmore⟩ := finish_frame g id u
    rw [hmore]
  have hstopped : ∀ id (u : Schedule), (u.stopped g id).failed = u.failed := fun id u => by
    rw [stopped_frame]
  rw [failures, List.countP_append, ← failures, ← Nat.add_assoc, ← hs]
  cases hmoves with
  | passed _ htakes _ => rw [hfinish, htakes.rest]; rfl
  | started _ htakes _ => rw [htakes.rest]; rfl
  | @finished u id survey hw _ _ =>
    rw [hfinish]
    exact (hstopped id u).trans hw.failed
  | @failed u id hw _ =>
    exact congrArg (· + 1) ((hstopped id u).trans hw.failed)

/-- After a failure nothing is taken from the queue. -/
theorem takenEdges_moves (hfailed : s.failed ≠ 0) (htaken : takenEdges events = [])
    (hmoves : Moves g jobs s event t) : t.failed ≠ 0 ∧ takenEdges (events ++ [event]) = [] := by
  have hcount : t.failed = s.failed + failures ([] ++ [event]) := failed_moves rfl hmoves
  refine ⟨by rw [hcount]; omega, ?_⟩
  rw [takenEdges_append, htaken]
  cases hmoves with
  | passed hopen => exact absurd hopen.2 hfailed
  | started hopen => exact absurd hopen.2 hfailed
  | finished => rfl
  | failed => rfl

end Schedule

end Rebuild
