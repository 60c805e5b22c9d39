import Rebuild.Proofs.Schedule.Flow
import Rebuild.Proofs.Schedule.Need

/-!
# How a build begins and comes to rest

What was scanned starts a build with its accounts in order. When nothing runs any more and nothing
is queued, and no command has failed, nothing is left: no pool has set an edge aside, since none of
its places is taken, and of edges that wait one would wait for nothing, since none depends on
itself.
-/

namespace Rebuild.Schedule

/-! ## The beginning -/

namespace Ready

variable {src : Scan.Sources} {found : Scan} {targets : List NodeId} {s : Schedule}

/-- An edge is registered to be run exactly if the scan found it stale. -/
theorem stale_iff (h : Ready src found targets s) {e : EdgeId} (he : (s.phase e).isSome) :
    Stale s e ↔ Scan.isStale src.log found.graph found.survey e := by
  obtain ⟨hphase, -⟩ := h.planned.of_isSome he
  rw [Stale, hphase, Option.some.injEq, Option.some.injEq, phaseFor_eq_waiting, phaseFor_eq_queued,
    ← and_or_left]
  exact and_iff_left (Decidable.not_or_of_imp id)

/-- The edges registered to be run are those that are needed and whose outputs are stale. -/
theorem stale_iff_dirty (hsound : Scan.Sound src found) (h : Ready src found targets s)
    (e : EdgeId) : Stale s e ↔
    Needed found.graph found.survey targets e ∧
      ∃ out ∈ (found.graph.edge e).outs, (found.survey.node out).dirty := by
  have hdirty : (s.phase e).isSome →
      ((∃ out ∈ (found.graph.edge e).outs, (found.survey.node out).dirty) ↔
        Scan.isStale src.log found.graph found.survey e) := by
    intro hsome
    obtain ⟨-, hdone, -⟩ := h.planned.of_isSome hsome
    have hall := (hsound.settled e hdone).dirty
    constructor
    · rintro ⟨out, hout, hdirty⟩
      rwa [hall out hout] at hdirty
    · intro hstale
      obtain ⟨out, hout⟩ := ((h.registered e).mp hsome).exists_out hsound.linked
      exact ⟨out, hout, by rwa [hall out hout]⟩
  rw [← h.registered]
  constructor
  · intro hstale
    exact ⟨hstale.isSome, (hdirty hstale.isSome).mpr ((h.stale_iff hstale.isSome).mp hstale)⟩
  · rintro ⟨hsome, hout⟩
    exact (h.stale_iff hsome).mpr ((hdirty hsome).mp hout)

/-- An edge that can go on is queued from the beginning. -/
private theorem not_pending (hsound : Scan.Sound src found) (h : Ready src found targets s)
    (e : EdgeId) : ¬Pending found.graph s e := by
  rintro ⟨hphase, hready⟩
  rw [h.planned.survey] at hready
  rcases hphase with hphase | hphase
  · obtain ⟨hfor, hdone, hnot, -⟩ := h.planned.phase e _ hphase
    have hclean := phaseFor_eq_clean.mp hfor.symm
    rw [(hsound.settled e hdone).ready, hready, Scan.isIdle] at hnot
    simp [hclean] at hnot
  · obtain ⟨hfor, -⟩ := h.planned.phase e _ hphase
    exact (phaseFor_eq_waiting.mp hfor.symm).2 hready

/-- The accounts are in order at the beginning of a build. -/
theorem flow (hsound : Scan.Sound src found) (h : Ready src found targets s) :
    Flow found.graph s [] s where
  tracked := by
    refine .refl (fun e he => (h.planned.of_isSome he).2.2.2) (fun e he => ?_) h.closed
      (h.not_pending hsound)
    obtain ⟨hfor, -⟩ := h.planned.phase e _ he
    rw [h.planned.survey]
    exact (phaseFor_eq_queued.mp hfor.symm).2
  ledger := by
    refine .refl (fun e => ?_) h.planned.running h.planned.started h.planned.failed
    have hload : ∀ p, s.loads.get p = default := fun p => h.planned.loads ▸ Table.get_default p
    rw [held, ← h.planned.count]
    cases poolOf? found.graph e with
    | none => rfl
    | some p =>
      rw [Option.elim_some, hload]
      rfl
  places := .idle h.planned.loads h.planned.running

end Ready

/-! ## The end -/

section Flow

variable {g : Graph} {start s t : Schedule} {events : List Event}

theorem Flow.waits {jobs : Nat} (h : Flow g start events s) (hwaits : Waits g jobs s t) :
    Flow g start events t where
  tracked := by
    have htracked := h.tracked.congr hwaits.phases (congrArg Survey.edges hwaits.survey) []
    rwa [List.append_nil] at htracked
  ledger := h.ledger.waits hwaits
  places := h.places.waits hwaits

/-- Nothing is registered during a build. -/
theorem Tracked.isSome_start (h : Tracked g start events s) {e : EdgeId}
    (he : (s.phase e).isSome) : (start.phase e).isSome := by
  obtain ⟨phase, hphase⟩ := Option.isSome_iff_exists.mp he
  cases phase with
  | clean => rw [h.clean e hphase]; rfl
  | waiting => exact (h.stale e (.inl hphase)).isSome
  | queued => exact (h.stale e (.inr hphase)).isSome

/-- Without places taken and edges queued, no pool has set an edge aside. -/
theorem Placed.delayed_eq_nil (h : Placed g s) (hrunning : s.running = []) (hready : s.ready = [])
    (p : PoolId) : (s.loads.get p).delayed = [] := by
  by_contra hne
  obtain ⟨e, he⟩ := List.exists_mem_of_ne_nil _ hne
  obtain ⟨-, -, hdepth⟩ := poolOf?_eq_some.mp (h.filed p e he)
  have hcrowd := h.crowded p hne
  rw [h.counted, hrunning, hready] at hcrowd
  exact hdepth (Nat.le_zero.mp hcrowd)

theorem Placed.held_eq_zero (h : Placed g s) (hrunning : s.running = []) (hready : s.ready = [])
    (e : EdgeId) : held g s e = 0 := by
  rw [held, hready]
  cases poolOf? g e with
  | none => rfl
  | some p => rw [Option.elim_some, h.delayed_eq_nil hrunning hready]; rfl

/-- What was taken passed or was started, as its edge has no command or has one. -/
theorem Ledger.of_taken (h : Ledger g start none events s) {e : EdgeId}
    (he : e ∈ takenEdges events) :
    (g.edge e).isPhony ∧ .passed e ∈ events ∧ .started e ∉ events ∨
      (g.edge e).isPhony = false ∧ .started e ∈ events ∧ .passed e ∉ events := by
  obtain ⟨event, hevent, hid⟩ := List.mem_filterMap.mp he
  cases event with
  | passed id =>
    cases hid
    have hphony := h.phony e hevent
    refine .inl ⟨hphony, hevent, fun hstarted => ?_⟩
    rw [h.commands e hstarted] at hphony
    cases hphony
  | started id =>
    cases hid
    have hcommand := h.commands e hevent
    refine .inr ⟨hcommand, hevent, fun hpassed => ?_⟩
    rw [h.phony e hpassed] at hcommand
    cases hcommand
  | finished id => cases hid
  | failed id => cases hid

/-- What was started has finished, unless it runs or has failed. -/
theorem Ledger.finished_of_started (h : Ledger g start none events s) (hrunning : s.running = [])
    (hfailed : ∀ e, .failed e ∉ events) {e : EdgeId} (he : .started e ∈ events) :
    .finished e ∈ events := by
  have hcount := h.running e
  have hpos : 0 < (startedEdges events).count e :=
    List.count_pos_iff.mpr (List.mem_filterMap.mpr ⟨_, he, rfl⟩)
  rw [hrunning, List.count_nil] at hcount
  have hmem := List.count_pos_iff.mp (show 0 < (stoppedEdges events).count e by omega)
  obtain ⟨event, hevent, hid⟩ := List.mem_filterMap.mp hmem
  cases event with
  | passed id => cases hid
  | started id => cases hid
  | finished id =>
    cases hid
    exact hevent
  | failed id => exact absurd hevent (hfailed id)

/-- Every event takes an edge from the queue or is the end of a command. -/
theorem length_events (events : List Event) :
    events.length = (takenEdges events).length + (stoppedEdges events).length := by
  induction events using List.reverseRecOn with
  | nil => rfl
  | append_singleton events event ih =>
    rw [takenEdges_append, stoppedEdges_append, List.length_append, List.length_append,
      List.length_append, ih]
    cases event <;> simp only [Event.taken?, Event.stopped?, Option.toList_some,
      Option.toList_none, List.length_singleton, List.length_nil] <;> omega

/-- Each edge is taken at most once and stops at most once. -/
theorem Flow.length_events_le (h : Flow g start events s)
    (hlt : ∀ e : Nat, (start.phase e).isSome → e < g.edges.size) :
    events.length ≤ 2 * g.edges.size := by
  have htaken : (takenEdges events).length ≤ g.edges.size := by
    have hsubset : takenEdges events ⊆ List.range g.edges.size := by
      intro e he
      have hplaced := h.ledger.placed e
      have hpos := List.count_pos_iff.mpr he
      refine List.mem_range.mpr (hlt e ?_)
      split at hplaced
      · next hcases =>
        rcases hcases with hqueued | ⟨-, hstale⟩
        · exact h.tracked.isSome_start (by rw [hqueued]; rfl)
        · exact hstale.isSome
      · omega
    have hle := (h.ledger.takenEdges_nodup.subperm hsubset).length_le
    rwa [List.length_range] at hle
  have hstopped : (stoppedEdges events).length ≤ (startedEdges events).length := by
    have hperm : (startedEdges events).Perm (s.running ++ stoppedEdges events) :=
      List.perm_iff_count.mpr fun e => by rw [List.count_append, h.ledger.running]
    rw [hperm.length_eq, List.length_append]
    exact Nat.le_add_left _ _
  have hstarted := (startedEdges_sublist events).length_le
  rw [length_events]
  omega

end Flow

/-- What a build has done when all that was needed is made: edges with commands were run once each,
phony ones passed once each, and nothing else happened or is left. -/
structure Complete (found : Scan) (targets : List NodeId) (events : List Event) (s : Schedule) :
    Prop where
  usable : ∀ e, Needed found.graph found.survey targets e → (s.survey.edge e).outputReady
  unregistered : ∀ e, s.phase e = none
  ready : s.ready = []
  delayed : ∀ p, (s.loads.get p).delayed = []
  total : s.started = s.total
  taken : ∀ e, (takenEdges events).count e ≤ 1 ∧ (e ∈ takenEdges events ↔
    Needed found.graph found.survey targets e ∧
      ∃ out ∈ (found.graph.edge e).outs, (found.survey.node out).dirty)
  passed : ∀ e ∈ takenEdges events, (found.graph.edge e).isPhony →
    .passed e ∈ events ∧ .started e ∉ events
  run : ∀ e ∈ takenEdges events, (found.graph.edge e).isPhony = false →
    .started e ∈ events ∧ .finished e ∈ events ∧ .passed e ∉ events

section AtRest

variable {src : Scan.Sources} {found : Scan} {targets : List NodeId} {start s : Schedule}
  {events : List Event} (hsound : Scan.Sound src found) (hstart : Ready src found targets start)
  (hflow : Flow found.graph start events s) (hrunning : s.running = []) (hready : s.ready = [])
  (hfailed : ∀ e, .failed e ∉ events)
include hflow hrunning hready hfailed

/-- An edge that was queued was taken, and then its command ran. -/
private theorem not_queued (e : EdgeId) : s.phase e ≠ some .queued := by
  intro hqueued
  have hplaced := hflow.ledger.placed e
  rw [hflow.places.held_eq_zero hrunning hready, if_pos (.inl hqueued)] at hplaced
  have hmem := List.count_pos_iff.mp (show 0 < (takenEdges events).count e by omega)
  rcases hflow.ledger.taken e hqueued hmem with hrun | hfail | hhole
  · rw [hrunning] at hrun
    cases hrun
  · exact hfailed e hfail
  · cases hhole

include hsound hstart in
/-- Of the edges that are left one would have all its inputs ready, since none depends on itself. -/
private theorem phase_eq_none (e : EdgeId) : s.phase e = none := by
  by_contra hne
  have hsome := Option.isSome_iff_ne_none.mpr hne
  clear hne
  obtain ⟨-, hdone, -⟩ := hstart.planned.of_isSome (hflow.tracked.isSome_start hsome)
  have hacc := (hsound.settled e hdone).founded
  clear hdone
  induction hacc with
  | intro e _ ih =>
    have hwaits : s.phase e = some .clean ∨ s.phase e = some .waiting := by
      cases hp : s.phase e with
      | none => rw [hp] at hsome; cases hsome
      | some phase =>
        cases phase with
        | clean => exact .inl rfl
        | waiting => exact .inr rfl
        | queued => exact absurd hp (not_queued hflow hrunning hready hfailed e)
    have hinputs : ¬s.survey.inputsReady found.graph e :=
      fun h => hflow.tracked.pending e ⟨hwaits, h⟩
    rw [inputsReady_iff] at hinputs
    push Not at hinputs
    obtain ⟨n, hn, p, hp, hnot⟩ := hinputs
    exact ih p ⟨n, hn, hp⟩ ((hflow.tracked.closed e hsome n hn p hp).resolve_left hnot)

include hsound hstart in
/-- An edge was taken exactly if it was registered to be run. -/
private theorem count_taken (e : EdgeId) :
    (takenEdges events).count e = if Stale start e then 1 else 0 := by
  have hplaced := hflow.ledger.placed e
  rw [hflow.places.held_eq_zero hrunning hready,
    phase_eq_none hsound hstart hflow hrunning hready hfailed e] at hplaced
  simpa using hplaced

include hsound hstart in
/-- A schedule where nothing runs or is queued, no command having failed, has done all. -/
theorem complete : Complete found targets events s := by
  have hnone := phase_eq_none hsound hstart hflow hrunning hready hfailed
  have hcount := count_taken hsound hstart hflow hrunning hready hfailed
  have htaken : ∀ e, e ∈ takenEdges events ↔ Stale start e := fun e => by
    rw [← List.count_pos_iff, hcount]
    split <;> simp [*]
  refine ⟨fun e he => hflow.tracked.done e ((hstart.registered e).mpr he) (hnone e), hnone, hready,
    hflow.places.delayed_eq_nil hrunning hready, ?_, fun e => ⟨?_, ?_⟩, fun e he hphony => ?_,
    fun e he hcommand => ?_⟩
  · rw [hflow.ledger.count, hflow.ledger.total, hstart.planned.total]
    refine (Graph.countEdges_eq_length hflow.ledger.startedEdges_nodup fun e => ?_).symm
    constructor
    · intro he
      obtain ⟨event, hevent, hid⟩ := List.mem_filterMap.mp he
      cases event with
      | started id =>
        cases hid
        have hstale := (htaken e).mp ((startedEdges_sublist events).subset he)
        exact ⟨(hstart.planned.of_isSome hstale.isSome).2.2.2, hstale,
          hflow.ledger.commands e hevent⟩
      | passed id => cases hid
      | finished id => cases hid
      | failed id => cases hid
    · rintro ⟨-, hstale, hcommand⟩
      rcases hflow.ledger.of_taken ((htaken e).mpr hstale) with ⟨hphony, -⟩ | ⟨-, hstarted, -⟩
      · rw [hcommand] at hphony
        cases hphony
      · exact List.mem_filterMap.mpr ⟨_, hstarted, rfl⟩
  · rw [hcount]
    split <;> omega
  · rw [htaken, hstart.stale_iff_dirty hsound]
  · rcases hflow.ledger.of_taken he with ⟨-, h⟩ | ⟨hcommand, -⟩
    · exact h
    · rw [hphony] at hcommand
      cases hcommand
  · rcases hflow.ledger.of_taken he with ⟨hphony, -⟩ | ⟨-, hstarted, hpassed⟩
    · rw [hcommand] at hphony
      cases hphony
    · exact ⟨hstarted, hflow.ledger.finished_of_started hrunning hfailed hstarted, hpassed⟩

end AtRest

end Rebuild.Schedule
