import Rebuild.Proofs.Schedule.Moves

/-!
# What a build has done and what is left

Two accounts are kept along the moves of a schedule. One relates phases to readiness: an edge that
is no longer registered can be used, what goes into a registered edge can be used or is registered
too, and no edge that could go on is forgotten. The other one relates the queue, the pools and the
running commands to what happened: each stale edge is queued once, taken once, and runs until it
stops.
-/

namespace Rebuild.Schedule

variable {g : Graph} {start s t : Schedule} {events : List Event}

/-! ## Finishing an edge, seen from one edge -/

/-- What becomes of an edge when an edge finishes. -/
theorem finish_fate {id : Nat} (hid : id < g.edges.size) (s : Schedule) (e : EdgeId) :
    e = id ∧ (s.finish g id).phase e = none ∧ ((s.finish g id).survey.edge e).outputReady ∧
        (s.finish g id).ready.count e = s.ready.count e ∨
      e ≠ id ∧ Fate g s (s.finish g id) e := by
  have hripple := finish_ripple hid s
  have hcount : (s.conclude id).ready.count e = s.ready.count e := rfl
  by_cases he : e = id
  · subst he
    have hnone : (s.conclude e).phase e = none := by rw [phase_conclude, if_pos rfl]
    refine .inl ⟨rfl, hripple.phase_of_none hnone, hripple.outputReady ?_, ?_⟩
    · rw [edge_conclude, if_pos rfl]
    · cases hripple.fate e with
      | kept _ _ hsame => exact hsame
      | queued hp => rw [hnone] at hp; cases hp
      | finished hp => rw [hnone] at hp; cases hp
  · have hp : (s.conclude id).phase e = s.phase e := by rw [phase_conclude, if_neg (Ne.symm he)]
    have hedge : (s.conclude id).survey.edge e = s.survey.edge e := by
      rw [edge_conclude, if_neg (Ne.symm he)]
    refine .inr ⟨he, ?_⟩
    cases hripple.fate e with
    | kept hp' hedge' hsame => exact .kept (hp'.trans hp) (hedge'.trans hedge) hsame
    | queued hw hq hin hedge' hmore =>
      exact .queued (hp ▸ hw) hq hin (hedge'.trans hedge) hmore
    | finished hc hn hin hr hsame => exact .finished (hp ▸ hc) hn hin hr hsame

theorem finish_isSome_phase {id : Nat} (hid : id < g.edges.size) {e : EdgeId}
    (h : ((s.finish g id).phase e).isSome) : (s.phase e).isSome := by
  have hsome := (finish_ripple hid s).isSome_phase h
  rw [phase_conclude] at hsome
  split at hsome
  · cases hsome
  · exact hsome

theorem finish_outputReady {id : Nat} (hid : id < g.edges.size) {e : EdgeId}
    (h : (s.survey.edge e).outputReady) : ((s.finish g id).survey.edge e).outputReady :=
  (finish_ripple hid s).outputReady (outputReady_conclude s id h)

theorem finish_inputsReady {id : Nat} (hid : id < g.edges.size) {e : EdgeId}
    (h : s.survey.inputsReady g e) : (s.finish g id).survey.inputsReady g e :=
  inputsReady_iff.mpr fun n hn p hp => finish_outputReady hid (inputsReady_iff.mp h n hn p hp)

/-! ## Phases and readiness -/

/-- An edge passed, or its command finished. -/
def Completed (events : List Event) (e : EdgeId) : Prop :=
  .passed e ∈ events ∨ .finished e ∈ events

/-- How a schedule relates to the one at the start after some events, as to phases and readiness. -/
structure Tracked (g : Graph) (start : Schedule) (events : List Event) (s : Schedule) : Prop where
  lt : ∀ e, (s.phase e).isSome → e < g.edges.size
  clean : ∀ e, s.phase e = some .clean → start.phase e = some .clean
  stale : ∀ e, Stale s e → Stale start e
  done : ∀ e, (start.phase e).isSome → s.phase e = none → (s.survey.edge e).outputReady
  usable : ∀ e, (start.survey.edge e).outputReady → (s.survey.edge e).outputReady
  origin : ∀ e, (s.survey.edge e).outputReady → (start.survey.edge e).outputReady ∨
    Completed events e ∨ start.phase e = some .clean ∧ s.survey.inputsReady g e
  queued : ∀ e, s.phase e = some .queued → s.survey.inputsReady g e
  closed : ∀ e, (s.phase e).isSome → ∀ n ∈ (g.edge e).ins, Covered g s n
  pending : ∀ e, ¬Pending g s e

namespace Tracked

theorem refl (hlt : ∀ e, (s.phase e).isSome → e < g.edges.size)
    (hqueued : ∀ e, s.phase e = some .queued → s.survey.inputsReady g e)
    (hdone : ∀ e, (s.phase e).isSome → ∀ n ∈ (g.edge e).ins, Covered g s n)
    (hpending : ∀ e, ¬Pending g s e) : Tracked g s [] s where
  lt := hlt
  clean _ h := h
  stale _ h := h
  done e hsome hnone := by rw [hnone] at hsome; cases hsome
  usable _ h := h
  origin _ h := .inl h
  queued := hqueued
  closed := hdone
  pending := hpending

/-- Only phases and readiness matter. -/
theorem congr (h : Tracked g start events s) (hphases : t.phases = s.phases)
    (hedges : t.survey.edges = s.survey.edges) (more : List Event) :
    Tracked g start (events ++ more) t := by
  have hphase : ∀ e, t.phase e = s.phase e := fun e =>
    congrArg (fun phases => Table.get phases e) hphases
  have hedge : ∀ e, t.survey.edge e = s.survey.edge e := fun e =>
    congrArg (fun edges => Table.get edges e) hedges
  have hinputs : ∀ e, t.survey.inputsReady g e ↔ s.survey.inputsReady g e := fun e => by
    rw [inputsReady_iff, inputsReady_iff]
    simp only [hedge]
  refine ⟨fun e he => h.lt e (hphase e ▸ he), fun e he => h.clean e (hphase e ▸ he),
    fun e he => h.stale e ?_, fun e hsome hnone => ?_, fun e he => ?_, fun e he => ?_,
    fun e he => ?_, fun e he n hn p hp => ?_, fun e he => h.pending e ?_⟩
  · rwa [Stale, hphase] at he
  · rw [hedge]
    exact h.done e hsome (hphase e ▸ hnone)
  · rw [hedge]
    exact h.usable e he
  · rw [hedge] at he
    rw [hinputs]
    refine (h.origin e he).imp_right (Or.imp_left ?_)
    exact Or.imp (List.mem_append_left _) (List.mem_append_left _)
  · rw [hinputs]
    exact h.queued e (hphase e ▸ he)
  · rw [hedge, hphase]
    exact h.closed e (hphase e ▸ he) n hn p hp
  · rwa [Pending, hphase, hinputs] at he

/-- An edge finishes, and others after it. -/
theorem finish (hg : g.Linked) (h : Tracked g start events s) {id : EdgeId}
    (hid : (s.phase id).isSome) (hcompleted : Completed events id) :
    Tracked g start events (s.finish g id) := by
  have hlt := h.lt id hid
  have hfate := finish_fate hlt s
  refine ⟨fun e he => h.lt e (finish_isSome_phase hlt he), fun e he => ?_, fun e he => ?_,
    fun e hsome hnone => ?_, fun e he => finish_outputReady hlt (h.usable e he), fun e he => ?_,
    fun e he => ?_, fun e he n hn p hp => ?_, pending_finish hg h.lt hid h.pending⟩
  · rcases hfate e with ⟨-, hp, -⟩ | ⟨-, ⟨hp, -, -⟩ | ⟨-, hp, -, -, -⟩ | ⟨-, hp, -, -, -⟩⟩
    · rw [hp] at he; cases he
    · exact h.clean e (hp ▸ he)
    · rw [hp] at he; cases he
    · rw [hp] at he; cases he
  · rcases hfate e with ⟨-, hp, -⟩ | ⟨-, ⟨hp, -, -⟩ | ⟨hw, -, -, -, -⟩ | ⟨-, hp, -, -, -⟩⟩
    · simp [Stale, hp] at he
    · exact h.stale e (by rwa [Stale, hp] at he)
    · exact h.stale e (.inl hw)
    · simp [Stale, hp] at he
  · rcases hfate e with ⟨-, -, hr, -⟩ | ⟨-, ⟨hp, hedge, -⟩ | ⟨-, hp, -, -, -⟩ | ⟨-, -, -, hr, -⟩⟩
    · exact hr
    · rw [hedge]
      exact h.done e hsome (hp ▸ hnone)
    · rw [hp] at hnone; cases hnone
    · exact hr
  · have hbefore : (s.survey.edge e).outputReady → (start.survey.edge e).outputReady ∨
        Completed events e ∨ start.phase e = some .clean ∧ (s.finish g id).survey.inputsReady g e :=
      fun hr => (h.origin e hr).imp_right (Or.imp_right (And.imp_right (finish_inputsReady hlt)))
    rcases hfate e with ⟨heq, -⟩ | ⟨-, ⟨-, hedge, -⟩ | ⟨-, -, -, hedge, -⟩ | ⟨hc, -, hin, -, -⟩⟩
    · exact .inr (.inl (heq ▸ hcompleted))
    · exact hbefore (hedge ▸ he)
    · exact hbefore (hedge ▸ he)
    · exact .inr (.inr ⟨h.clean e hc, hin⟩)
  · rcases hfate e with ⟨-, hp, -⟩ | ⟨-, ⟨hp, -, -⟩ | ⟨-, -, hin, -, -⟩ | ⟨-, hp, -, -, -⟩⟩
    · rw [hp] at he; cases he
    · exact finish_inputsReady hlt (h.queued e (hp ▸ he))
    · exact hin
    · rw [hp] at he; cases he
  · rcases h.closed e (finish_isSome_phase hlt he) n hn p hp with hr | hsome
    · exact .inl (finish_outputReady hlt hr)
    · rcases hfate p with ⟨-, -, hr, -⟩ | ⟨-, ⟨hp', -, -⟩ | ⟨-, hp', -, -, -⟩ | ⟨-, -, -, hr, -⟩⟩
      · exact .inl hr
      · exact .inr (hp' ▸ hsome)
      · exact .inr (by rw [hp']; rfl)
      · exact .inl hr

end Tracked

/-! ## Places and events -/

/-- The edges that were taken from the queue. -/
def takenEdges (events : List Event) : List EdgeId := events.filterMap Event.taken?

/-- The edges whose commands were started. -/
def startedEdges (events : List Event) : List EdgeId := events.filterMap Event.started?

/-- The edges whose commands stopped. -/
def stoppedEdges (events : List Event) : List EdgeId := events.filterMap Event.stopped?

theorem takenEdges_append (events : List Event) (event : Event) :
    takenEdges (events ++ [event]) = takenEdges events ++ event.taken?.toList := by
  cases event <;> simp [takenEdges, Event.taken?]

theorem startedEdges_append (events : List Event) (event : Event) :
    startedEdges (events ++ [event]) = startedEdges events ++ event.started?.toList := by
  cases event <;> simp [startedEdges, Event.started?]

theorem stoppedEdges_append (events : List Event) (event : Event) :
    stoppedEdges (events ++ [event]) = stoppedEdges events ++ event.stopped?.toList := by
  cases event <;> simp [stoppedEdges, Event.stopped?]

theorem startedEdges_sublist (events : List Event) :
    (startedEdges events).Sublist (takenEdges events) := by
  induction events with
  | nil => exact .slnil
  | cons event events ih =>
    cases event with
    | passed id => exact .cons _ ih
    | started id => exact .cons_cons _ ih
    | finished id => exact ih
    | failed id => exact ih

/-- How a schedule relates to the one at the start after some events, as to places and events. The
edge `hole`, if any, was taken or has stopped, and is about to finish. -/
structure Ledger (g : Graph) (start : Schedule) (hole : Option EdgeId) (events : List Event)
    (s : Schedule) : Prop where
  placed : ∀ e, held g s e + (takenEdges events).count e =
    if s.phase e = some .queued ∨ s.phase e = none ∧ Stale start e then 1 else 0
  away : ∀ e, s.phase e = none → held g s e = 0
  running : ∀ e, (startedEdges events).count e =
    s.running.count e + (stoppedEdges events).count e
  busy : ∀ e ∈ s.running, s.phase e = some .queued
  taken : ∀ e, s.phase e = some .queued → e ∈ takenEdges events →
    e ∈ s.running ∨ .failed e ∈ events ∨ hole = some e
  total : s.total = start.total
  count : s.started = (startedEdges events).length
  failures : s.failed ≠ 0 → ∃ e, .failed e ∈ events
  phony : ∀ e, .passed e ∈ events → (g.edge e).isPhony
  commands : ∀ e, .started e ∈ events → (g.edge e).isPhony = false

namespace Ledger

variable {hole : Option EdgeId}

theorem refl (hplaced : ∀ e, held g s e = if s.phase e = some .queued then 1 else 0)
    (hrunning : s.running = []) (hstarted : s.started = 0) (hfailed : s.failed = 0) :
    Ledger g s none [] s where
  placed e := by
    rw [hplaced]
    cases hphase : s.phase e with
    | none => simp [takenEdges, Stale, hphase]
    | some phase => simp [takenEdges]
  away e he := by rw [hplaced, he]; rfl
  running e := by rw [hrunning]; rfl
  busy e he := by rw [hrunning] at he; cases he
  taken e _ he := nomatch he
  total := rfl
  count := hstarted
  failures hne := absurd hfailed hne
  phony e he := nomatch he
  commands e he := nomatch he

theorem takenEdges_nodup (h : Ledger g start hole events s) : (takenEdges events).Nodup := by
  refine List.nodup_iff_count_le_one.mpr fun e => ?_
  have hplaced := h.placed e
  split at hplaced <;> omega

theorem startedEdges_nodup (h : Ledger g start hole events s) : (startedEdges events).Nodup :=
  (startedEdges_sublist events).nodup h.takenEdges_nodup

/-- What was started and runs was taken, and stands nowhere any more. -/
theorem mem_taken_of_mem_running (h : Ledger g start hole events s) {e : EdgeId}
    (he : e ∈ s.running) : e ∈ takenEdges events := by
  have hrunning := h.running e
  have hpos := List.count_pos_iff.mpr he
  exact (startedEdges_sublist events).subset (List.count_pos_iff.mp (by omega))

theorem not_mem_erase (h : Ledger g start hole events s) (e : EdgeId) : e ∉ s.running.erase e := by
  have hrunning := h.running e
  have hone := List.nodup_iff_count_le_one.mp h.startedEdges_nodup e
  refine List.count_eq_zero.mp ?_
  rw [List.count_erase_self]
  omega

/-- An edge that is held was not taken, and is queued. -/
theorem of_held (h : Ledger g start hole events s) {e : EdgeId} (he : 0 < held g s e) :
    s.phase e = some .queued ∧ held g s e = 1 ∧ e ∉ takenEdges events := by
  have hplaced := h.placed e
  have hphase : s.phase e = some .queued := by
    by_contra hne
    rw [if_neg] at hplaced
    · omega
    · rintro (hq | ⟨hnone, -⟩)
      · exact hne hq
      · rw [h.away e hnone] at he
        omega
  rw [if_pos (.inl hphase)] at hplaced
  exact ⟨hphase, by omega, List.count_eq_zero.mp (by omega)⟩

/-- Nothing was taken, only set aside. -/
theorem waits {jobs : Nat} (h : Ledger g start none events s) (hwaits : Waits g jobs s t) :
    Ledger g start none events t := by
  rcases hwaits with ⟨-, rfl⟩ | ⟨-, skipped, htakes⟩
  · exact h
  have hheld : ∀ e, held g t e = held g s e := fun e => htakes.held e
  have hphase : ∀ e, t.phase e = s.phase e := fun e => by rw [htakes.rest]; rfl
  have hrunning : t.running = s.running := by rw [htakes.rest]
  refine ⟨fun e => ?_, fun e he => ?_, fun e => ?_, fun e he => ?_, fun e he => ?_, ?_, ?_, ?_,
    h.phony, h.commands⟩
  · rw [hheld, hphase, h.placed]
  · rw [hheld, h.away e (hphase e ▸ he)]
  · rw [hrunning, h.running]
  · rw [hphase]
    exact h.busy e (hrunning ▸ he)
  · rw [hrunning]
    exact h.taken e (hphase e ▸ he)
  · rw [htakes.rest]
    exact h.total
  · rw [htakes.rest]
    exact h.count
  · rw [htakes.rest]
    exact h.failures

section Takes

variable {id : EdgeId} {skipped : List EdgeId}

/-- The edge that is taken was queued, is held no more, and was not taken before. -/
theorem of_takes (h : Ledger g start hole events s)
    (htakes : Takes g s s.ready (some id) t skipped) :
    s.phase id = some .queued ∧ id ∉ takenEdges events ∧ id ∉ s.running := by
  have hheld := htakes.held id
  have hone : (some id).toList.count id = 1 := by simp
  obtain ⟨hphase, -, hnew⟩ := h.of_held (e := id) (by omega)
  exact ⟨hphase, hnew, fun hrun => hnew (h.mem_taken_of_mem_running hrun)⟩

private theorem placed_takes (h : Ledger g start hole events s)
    (htakes : Takes g s s.ready (some id) t skipped) {event : Event}
    (hevent : event.taken? = some id) (e : EdgeId) :
    held g t e + (takenEdges (events ++ [event])).count e =
      if t.phase e = some .queued ∨ t.phase e = none ∧ Stale start e then 1 else 0 := by
  have hheld := htakes.held e
  have hphase : t.phase e = s.phase e := by rw [htakes.rest]; rfl
  rw [hphase, ← h.placed, takenEdges_append, hevent, List.count_append, ← hheld]
  omega

/-- A phony edge is taken. -/
theorem passes (h : Ledger g start none events s)
    (htakes : Takes g s s.ready (some id) t skipped) (hphony : (g.edge id).isPhony) :
    Ledger g start (some id) (events ++ [.passed id]) t := by
  have hphase : ∀ e, t.phase e = s.phase e := fun e => by rw [htakes.rest]; rfl
  have hrunning : t.running = s.running := by rw [htakes.rest]
  refine ⟨h.placed_takes htakes rfl, fun e he => ?_, fun e => ?_, fun e he => ?_,
    fun e he htaken => ?_, ?_, ?_, fun hne => ?_, fun e he => ?_, fun e he => ?_⟩
  · have hheld := htakes.held e
    have haway := h.away e (hphase e ▸ he)
    omega
  · rw [startedEdges_append, stoppedEdges_append, hrunning]
    simpa [Event.started?, Event.stopped?] using h.running e
  · rw [hphase]
    exact h.busy e (hrunning ▸ he)
  · have hmem : e ∈ takenEdges events ∨ e = id := by
      simpa [takenEdges_append, Event.taken?] using htaken
    rcases hmem with hmem | rfl
    · rcases h.taken e (hphase e ▸ he) hmem with hrun | hfail | hhole
      · exact .inl (hrunning ▸ hrun)
      · exact .inr (.inl (List.mem_append_left _ hfail))
      · cases hhole
    · exact .inr (.inr rfl)
  · rw [htakes.rest]
    exact h.total
  · rw [htakes.rest, startedEdges_append]
    simpa [Event.started?] using h.count
  · rw [htakes.rest] at hne
    obtain ⟨e, he⟩ := h.failures hne
    exact ⟨e, List.mem_append_left _ he⟩
  · rcases List.mem_append.mp he with he | he
    · exact h.phony e he
    · cases List.mem_singleton.mp he
      exact hphony
  · rcases List.mem_append.mp he with he | he
    · exact h.commands e he
    · cases List.mem_singleton.mp he

/-- The command of an edge that was taken is started. -/
theorem starts (h : Ledger g start none events s)
    (htakes : Takes g s s.ready (some id) t skipped) (hphony : (g.edge id).isPhony = false) :
    Ledger g start none (events ++ [.started id])
      { t with running := t.running ++ [id], started := t.started + 1 } := by
  have hphase : ∀ e, t.phase e = s.phase e := fun e => by rw [htakes.rest]; rfl
  have hrunning : t.running = s.running := by rw [htakes.rest]
  obtain ⟨hqueued, -⟩ := h.of_takes htakes
  refine ⟨h.placed_takes htakes rfl, fun e he => ?_, fun e => ?_, fun e he => ?_,
    fun e he htaken => ?_, ?_, ?_, fun hne => ?_, fun e he => ?_, fun e he => ?_⟩
  · have hheld := htakes.held e
    have haway := h.away e ((hphase e).symm.trans he)
    exact Nat.le_zero.mp (Nat.le_trans (Nat.le_add_right _ _) (hheld.le.trans haway.le))
  · have hcount := h.running e
    rw [startedEdges_append, stoppedEdges_append]
    simp only [Event.started?, Event.stopped?, Option.toList_some, Option.toList_none, hrunning,
      List.count_append, List.append_nil]
    omega
  · rcases List.mem_append.mp he with he | he
    · exact (hphase e).trans (h.busy e (hrunning ▸ he))
    · rw [List.mem_singleton.mp he]
      exact (hphase id).trans hqueued
  · have hmem : e ∈ takenEdges events ∨ e = id := by
      simpa [takenEdges_append, Event.taken?] using htaken
    rcases hmem with hmem | rfl
    · rcases h.taken e ((hphase e).symm.trans he) hmem with hrun | hfail | hhole
      · exact .inl (List.mem_append_left _ (hrunning ▸ hrun))
      · exact .inr (.inl (List.mem_append_left _ hfail))
      · cases hhole
    · exact .inl (List.mem_append_right _ List.mem_cons_self)
  · show t.total = start.total
    rw [htakes.rest]
    exact h.total
  · have hcount : t.started = (startedEdges events).length := by
      rw [htakes.rest]
      exact h.count
    simp [startedEdges_append, Event.started?, hcount]
  · have hfailed : t.failed = s.failed := by rw [htakes.rest]
    obtain ⟨e, he⟩ := h.failures (hfailed ▸ hne)
    exact ⟨e, List.mem_append_left _ he⟩
  · rcases List.mem_append.mp he with he | he
    · exact h.phony e he
    · cases List.mem_singleton.mp he
  · rcases List.mem_append.mp he with he | he
    · exact h.commands e he
    · cases List.mem_singleton.mp he
      exact hphony

end Takes

section Stops

variable {id : EdgeId}

/-- A command stops that was running: what it leaves in the schedule, and with what it agrees. -/
private theorem stops (h : Ledger g start none events s) (hid : id ∈ s.running) {event : Event}
    (hstopped : event.stopped? = some id) (htaken : event.taken? = none)
    (hstarted : event.started? = none)
    (hheld : ∀ e, held g t e = held g s e) (hphase : ∀ e, t.phase e = s.phase e)
    (hrunning : t.running = s.running.erase id) (htotal : t.total = s.total)
    (hcount : t.started = s.started)
    (hfailures : t.failed ≠ 0 → s.failed ≠ 0 ∨ event = .failed id)
    (hhole : hole = some id ∨ event = .failed id) :
    Ledger g start hole (events ++ [event]) t := by
  refine ⟨fun e => ?_, fun e he => ?_, fun e => ?_, fun e he => ?_, fun e he hmem => ?_, ?_, ?_,
    fun hne => ?_, fun e he => ?_, fun e he => ?_⟩
  · rw [hheld, hphase, takenEdges_append, htaken, Option.toList_none, List.append_nil, h.placed]
  · rw [hheld, h.away e (hphase e ▸ he)]
  · have hbefore := h.running e
    rw [startedEdges_append, stoppedEdges_append, hstarted, hstopped, hrunning, List.count_append,
      List.count_append, Option.toList_none, Option.toList_some, List.count_nil]
    by_cases heq : e = id
    · subst heq
      have hpos := List.count_pos_iff.mpr hid
      rw [List.count_erase_self, List.count_singleton_self]
      omega
    · rw [List.count_erase_of_ne heq, List.count_singleton, if_neg (by simpa using Ne.symm heq)]
      omega
  · rw [hphase]
    exact h.busy e (List.mem_of_mem_erase (hrunning ▸ he))
  · rw [takenEdges_append, htaken, Option.toList_none, List.append_nil] at hmem
    rcases h.taken e (hphase e ▸ he) hmem with hrun | hfail | hnone
    · by_cases heq : e = id
      · subst heq
        rcases hhole with hhole | hevent
        · exact .inr (.inr hhole)
        · exact .inr (.inl (List.mem_append_right _ (hevent ▸ List.mem_cons_self)))
      · rw [hrunning]
        exact .inl ((List.mem_erase_of_ne heq).mpr hrun)
    · exact .inr (.inl (List.mem_append_left _ hfail))
    · cases hnone
  · rw [htotal, h.total]
  · rw [hcount, startedEdges_append, hstarted, Option.toList_none, List.append_nil, h.count]
  · rcases hfailures hne with hbefore | hevent
    · obtain ⟨e, he⟩ := h.failures hbefore
      exact ⟨e, List.mem_append_left _ he⟩
    · exact ⟨id, List.mem_append_right _ (hevent ▸ List.mem_cons_self)⟩
  · rcases List.mem_append.mp he with he | he
    · exact h.phony e he
    · rw [← List.mem_singleton.mp he] at htaken
      cases htaken
  · rcases List.mem_append.mp he with he | he
    · exact h.commands e he
    · rw [← List.mem_singleton.mp he] at htaken
      cases htaken

theorem stops_finished (h : Ledger g start none events s) (hplaced : Placed g s)
    (hid : id ∈ s.running) (survey : Survey) : Ledger g start (some id)
      (events ++ [.finished id]) { s.stopped g id with survey := survey } := by
  refine h.stops hid rfl rfl rfl (held_stopped hplaced id) (fun e => ?_)
    (stopped_running g s id) ?_ ?_ (fun hne => .inl ?_) (.inl rfl)
  · show Schedule.phase (s.stopped g id) e = s.phase e
    rw [stopped_frame]
    rfl
  · show (s.stopped g id).total = s.total
    rw [stopped_frame]
  · show (s.stopped g id).started = s.started
    rw [stopped_frame]
  · change (s.stopped g id).failed ≠ 0 at hne
    rwa [stopped_frame] at hne

theorem stops_failed (h : Ledger g start none events s) (hplaced : Placed g s)
    (hid : id ∈ s.running) :
    Ledger g start none (events ++ [.failed id]) (s.stopped g id).fail := by
  refine h.stops hid rfl rfl rfl (held_stopped hplaced id) (fun e => ?_)
    (stopped_running g s id) ?_ ?_ (fun _ => .inr rfl) (.inr rfl)
  · show Schedule.phase (s.stopped g id) e = s.phase e
    rw [stopped_frame]
    rfl
  · show (s.stopped g id).total = s.total
    rw [stopped_frame]
  · show (s.stopped g id).started = s.started
    rw [stopped_frame]

end Stops

/-- The edge that was taken or has stopped finishes. -/
theorem finish {id : EdgeId} (h : Ledger g start (some id) events s)
    (htracked : Tracked g start events s) (hid : s.phase id = some .queued)
    (htaken : id ∈ takenEdges events) (hrun : id ∉ s.running) :
    Ledger g start none events (s.finish g id) := by
  have hlt := htracked.lt id (by rw [hid]; rfl)
  have hfate := finish_fate hlt s
  obtain ⟨more, hmore⟩ := finish_frame g id s
  have hrunning : (s.finish g id).running = s.running := by rw [hmore]
  have hloads : (s.finish g id).loads = s.loads := by rw [hmore]
  have hheld : ∀ e, held g (s.finish g id) e + s.ready.count e =
      held g s e + (s.finish g id).ready.count e := by
    intro e
    unfold held
    rw [hloads]
    omega
  have hgone : held g s id = 0 := by
    have hplaced := h.placed id
    have hpos := List.count_pos_iff.mpr htaken
    rw [if_pos (.inl hid)] at hplaced
    omega
  refine ⟨fun e => ?_, fun e he => ?_, fun e => hrunning ▸ h.running e, fun e he => ?_,
    fun e he hmem => ?_, ?_, ?_, fun hne => h.failures ?_, h.phony, h.commands⟩
  · have hbefore := h.placed e
    have hsum := hheld e
    rcases hfate e with
      ⟨rfl, hp, -, hc⟩ | ⟨-, ⟨hp, -, hc⟩ | ⟨hw, hp, -, -, hc⟩ | ⟨hw, hp, -, -, hc⟩⟩
    · rw [if_pos (.inl hid)] at hbefore
      rw [hp, if_pos (.inr ⟨rfl, htracked.stale e (.inr hid)⟩)]
      omega
    · rw [hp]
      omega
    · rw [if_neg (by rw [hw]; simp)] at hbefore
      rw [if_pos (.inl hp)]
      omega
    · rw [if_neg (by rw [hw]; simp)] at hbefore
      rw [if_neg (by rw [hp, Stale, htracked.clean e hw]; simp)]
      omega
  · have hsum := hheld e
    rcases hfate e with ⟨rfl, -, -, hc⟩ | ⟨-, ⟨hp, -, hc⟩ | ⟨-, hp, -, -, -⟩ | ⟨hw, -, -, -, hc⟩⟩
    · omega
    · have haway := h.away e (hp ▸ he)
      omega
    · rw [hp] at he
      cases he
    · have hbefore := h.placed e
      rw [if_neg (by rw [hw]; simp)] at hbefore
      omega
  · have hqueued := h.busy e (hrunning ▸ he)
    rcases hfate e with ⟨rfl, -⟩ | ⟨-, ⟨hp, -, -⟩ | ⟨-, hp, -, -, -⟩ | ⟨hw, -, -, -, -⟩⟩
    · exact absurd (hrunning ▸ he) hrun
    · rw [hp, hqueued]
    · exact hp
    · rw [hqueued] at hw
      cases hw
  · rcases hfate e with ⟨-, hp, -⟩ | ⟨hne, ⟨hp, -, -⟩ | ⟨hw, -, -, -, -⟩ | ⟨-, hp, -, -, -⟩⟩
    · rw [hp] at he
      cases he
    · rw [hrunning]
      exact (h.taken e (hp ▸ he) hmem).imp_right
        (Or.imp_right fun hhole => absurd (Option.some.inj hhole).symm hne)
    · have hbefore := h.placed e
      have hpos := List.count_pos_iff.mpr hmem
      rw [if_neg (by rw [hw]; simp)] at hbefore
      omega
    · rw [hp] at he
      cases he
  · rw [hmore]
    exact h.total
  · rw [hmore]
    exact h.count
  · rwa [hmore] at hne

end Ledger

/-! ## Along the moves -/

/-- All that is known about a schedule after some events. -/
structure Flow (g : Graph) (start : Schedule) (events : List Event) (s : Schedule) : Prop where
  tracked : Tracked g start events s
  ledger : Ledger g start none events s
  places : Placed g s

/-- Every move keeps the accounts. -/
theorem Flow.moves (hg : g.Linked) {jobs : Nat} {event : Event} (h : Flow g start events s)
    (hmoves : Moves g jobs s event t) : Flow g start (events ++ [event]) t := by
  have hplaces := h.places.moves hmoves
  cases hmoves with
  | @passed u id skipped _ htakes hphony =>
    obtain ⟨hqueued, -, hrun⟩ := h.ledger.of_takes htakes
    have htracked : Tracked g start (events ++ [.passed id]) u :=
      h.tracked.congr (by rw [htakes.rest]) (by rw [htakes.rest]) _
    have hphase : u.phase id = some .queued := by
      rw [← hqueued, htakes.rest]
      rfl
    refine ⟨htracked.finish hg (by rw [hphase]; rfl) (.inl (by simp)), ?_, hplaces⟩
    refine (h.ledger.passes htakes hphony).finish htracked hphase ?_ ?_
    · simp [takenEdges_append, Event.taken?]
    · rw [htakes.rest]
      exact hrun
  | @started u id skipped _ htakes hphony =>
    exact ⟨h.tracked.congr (by rw [htakes.rest]) (by rw [htakes.rest]) _,
      h.ledger.starts htakes hphony, hplaces⟩
  | @finished u id survey hwaits hid hedges =>
    have hledger := h.ledger.waits hwaits
    have hstops := hledger.stops_finished (h.places.waits hwaits) hid survey
    have hphase : Schedule.phase { u.stopped g id with survey := survey } id = some .queued := by
      show Schedule.phase (u.stopped g id) id = some .queued
      rw [stopped_frame]
      exact hledger.busy id hid
    have htracked : Tracked g start (events ++ [.finished id])
        { u.stopped g id with survey := survey } := by
      refine h.tracked.congr ?_ ?_ _
      · show (u.stopped g id).phases = s.phases
        rw [stopped_frame]
        exact hwaits.phases
      · rw [← hwaits.survey]
        exact hedges
    refine ⟨htracked.finish hg (by rw [hphase]; rfl) (.inr (by simp)), ?_, hplaces⟩
    refine hstops.finish htracked hphase ?_ ?_
    · rw [takenEdges_append]
      exact List.mem_append_left _ (hledger.mem_taken_of_mem_running hid)
    · show id ∉ (u.stopped g id).running
      rw [stopped_running]
      exact hledger.not_mem_erase id
  | @failed u id hwaits hid =>
    refine ⟨h.tracked.congr ?_ ?_ _,
      (h.ledger.waits hwaits).stops_failed (h.places.waits hwaits) hid, hplaces⟩
    · show (u.stopped g id).phases = s.phases
      rw [stopped_frame]
      exact hwaits.phases
    · show (u.stopped g id).survey.edges = s.survey.edges
      rw [stopped_frame, hwaits.survey]

end Rebuild.Schedule
