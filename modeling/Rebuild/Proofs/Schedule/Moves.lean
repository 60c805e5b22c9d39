import Rebuild.Proofs.Schedule.Cascade
import Rebuild.Proofs.Schedule.Places

/-!
# How a schedule moves

A schedule moves on when a phony edge passes, when a command is started, and when a command stops,
with success or not. Which running command stops next is left open, so that `Moves` has all orders
of completion. A move keeps the places of edges in order.
-/

namespace Rebuild.Schedule

/-- What happens to an edge: it passes without a command, or its command is started, finishes or
fails. -/
inductive Event where
  | passed (id : EdgeId)
  | started (id : EdgeId)
  | finished (id : EdgeId)
  | failed (id : EdgeId)
deriving DecidableEq, Repr

/-- The edge is taken from the queue. -/
def Event.taken? : Event → Option EdgeId
  | .passed id | .started id => some id
  | .finished _ | .failed _ => none

/-- The command of the edge is started. -/
def Event.started? : Event → Option EdgeId
  | .started id => some id
  | .passed _ | .finished _ | .failed _ => none

/-- The command of the edge stops. -/
def Event.stopped? : Event → Option EdgeId
  | .finished id | .failed id => some id
  | .passed _ | .started _ => none

/-- What runs after an event. -/
def Event.runs (running : List EdgeId) : Event → List EdgeId
  | .passed _ => running
  | .started id => running ++ [id]
  | .finished id | .failed id => running.erase id

variable {g : Graph} {jobs : Nat} {s s' : Schedule}

/-- Commands can be started. -/
def Open (jobs : Nat) (s : Schedule) : Prop :=
  s.running.length < jobs ∧ s.failed = 0

/-- A schedule finds nothing to start and waits for a command to stop. -/
def Waits (g : Graph) (jobs : Nat) (s s' : Schedule) : Prop :=
  ¬Open jobs s ∧ s' = s ∨ Open jobs s ∧ ∃ skipped, Takes g s s.ready none s' skipped

/-- A step of a schedule. The outputs of a command that finishes are looked at anew. -/
inductive Moves (g : Graph) (jobs : Nat) (s : Schedule) : Event → Schedule → Prop
  | passed {s' id skipped} : Open jobs s → Takes g s s.ready (some id) s' skipped →
    (g.edge id).isPhony → Moves g jobs s (.passed id) (s'.finish g id)
  | started {s' id skipped} : Open jobs s → Takes g s s.ready (some id) s' skipped →
    (g.edge id).isPhony = false → Moves g jobs s (.started id)
      { s' with running := s'.running ++ [id], started := s'.started + 1 }
  | finished {s' id survey} : Waits g jobs s s' → id ∈ s'.running →
    survey.edges = s'.survey.edges → Moves g jobs s (.finished id)
      (Schedule.finish g id { s'.stopped g id with survey := survey })
  | failed {s' id} : Waits g jobs s s' → id ∈ s'.running →
    Moves g jobs s (.failed id) (s'.stopped g id).fail

/-- What a turn decides, and what it leaves. -/
theorem turn_eq (g : Graph) (jobs : Nat) (s : Schedule) :
    (∃ id s' skipped, Open jobs s ∧ s.takeReady g = (some id, s') ∧
        Takes g s s.ready (some id) s' skipped ∧
        ((g.edge id).isPhony ∧ s.turn g jobs = (.again, s'.finish g id) ∨
        (g.edge id).isPhony = false ∧ s.turn g jobs = (.start id,
          { s' with running := s'.running ++ [id], started := s'.started + 1 }))) ∨
      ∃ s', Waits g jobs s s' ∧ s.turn g jobs = (s'.rest, s') := by
  unfold turn
  by_cases hopen : s.running.length < jobs ∧ s.failed = 0
  · rw [if_pos hopen]
    obtain ⟨skipped, htakes⟩ := takeFrom_takes (g := g) s.ready s
    rw [takeReady]
    generalize takeFrom g s.ready s = result at htakes ⊢
    obtain ⟨taken, s'⟩ := result
    cases taken with
    | none => exact .inr ⟨s', .inr ⟨hopen, skipped, htakes⟩, rfl⟩
    | some id =>
      refine .inl ⟨id, s', skipped, hopen, rfl, htakes, ?_⟩
      dsimp only
      cases hphony : (g.edge id).isPhony with
      | true => exact .inl ⟨rfl, if_pos rfl⟩
      | false => exact .inr ⟨rfl, if_neg (by simp)⟩
  · rw [if_neg hopen]
    exact .inr ⟨s, .inl ⟨hopen, rfl⟩, rfl⟩

/-- What finishing an edge leaves as it was. -/
theorem finish_frame (g : Graph) (id : EdgeId) (s : Schedule) : ∃ more, s.finish g id = { s with
    survey := (s.finish g id).survey
    phases := (s.finish g id).phases
    ready := s.ready ++ more } := by
  rw [finish]
  cases g.edges.size with
  | zero => exact ⟨[], by rw [finishWithin, List.append_nil]⟩
  | succ depth =>
    obtain ⟨more, hmore⟩ := (finishWithin_ripple (g := g) depth id s).frame
    exact ⟨more, hmore⟩

theorem Waits.running (h : Waits g jobs s s') : s'.running = s.running := by
  rcases h with ⟨-, rfl⟩ | ⟨-, skipped, h⟩
  · rfl
  · rw [h.rest]

theorem Waits.phases (h : Waits g jobs s s') : s'.phases = s.phases := by
  rcases h with ⟨-, rfl⟩ | ⟨-, skipped, h⟩
  · rfl
  · rw [h.rest]

theorem Waits.survey (h : Waits g jobs s s') : s'.survey = s.survey := by
  rcases h with ⟨-, rfl⟩ | ⟨-, skipped, h⟩
  · rfl
  · rw [h.rest]

theorem Waits.failed (h : Waits g jobs s s') : s'.failed = s.failed := by
  rcases h with ⟨-, rfl⟩ | ⟨-, skipped, h⟩
  · rfl
  · rw [h.rest]

theorem Placed.waits (h : Placed g s) (hwaits : Waits g jobs s s') : Placed g s' := by
  rcases hwaits with ⟨-, rfl⟩ | ⟨-, skipped, htakes⟩
  · exact h
  · exact h.takes_unbounded htakes (by simp)

theorem Placed.finish (h : Placed g s) (id : EdgeId) : Placed g (s.finish g id) := by
  obtain ⟨more, hmore⟩ := finish_frame g id s
  rw [hmore]
  exact h.congr rfl rfl rfl

/-- Every move keeps places in order. -/
theorem Placed.moves {event : Event} (h : Placed g s) (hmoves : Moves g jobs s event s') :
    Placed g s' := by
  cases hmoves with
  | @passed t id skipped _ htakes hphony =>
    have hpool : ∀ d, some id = some d → poolOf? g d = none := by
      rintro _ ⟨⟩
      exact poolOf?_of_isPhony hphony
    exact (h.takes_unbounded htakes hpool).finish id
  | @started t id skipped _ htakes _ =>
    exact (h.takes htakes fun _ => rfl).congr rfl rfl (List.append_nil _).symm
  | @finished t id survey hwaits hid _ =>
    refine Placed.finish ?_ id
    exact ((h.waits hwaits).stopped hid).congr rfl rfl (List.append_nil _).symm
  | @failed t id hwaits hid =>
    exact ((h.waits hwaits).stopped hid).congr rfl rfl (List.append_nil _).symm

/-- What runs after a move. -/
theorem Moves.running {event : Event} (h : Moves g jobs s event s') :
    s'.running = event.runs s.running := by
  have hfinish : ∀ id (t : Schedule), (t.finish g id).running = t.running := fun id t => by
    obtain ⟨more, hmore⟩ := finish_frame g id t
    rw [hmore]
  cases h with
  | passed _ htakes _ => rw [hfinish, htakes.rest, Event.runs]
  | started _ htakes _ => rw [htakes.rest, Event.runs]
  | @finished t id _ hwaits _ _ =>
    rw [hfinish, Event.runs, ← hwaits.running]
    exact stopped_running g t id
  | @failed t id hwaits _ =>
    rw [Event.runs, ← hwaits.running]
    exact stopped_running g t id

/-- Only a command that runs can stop. -/
theorem Moves.mem_running {event : Event} (h : Moves g jobs s event s') {id : EdgeId}
    (hid : event.stopped? = some id) : id ∈ s.running := by
  cases h with
  | passed => cases hid
  | started => cases hid
  | finished hwaits hmem _ =>
    cases hid
    exact hwaits.running ▸ hmem
  | failed hwaits hmem =>
    cases hid
    exact hwaits.running ▸ hmem

/-- A command is only started if there is a job left for it. -/
theorem Moves.of_started {event : Event} (h : Moves g jobs s event s') {id : EdgeId}
    (hid : event.started? = some id) : Open jobs s ∧ (g.edge id).isPhony = false := by
  cases h with
  | passed => cases hid
  | started hopen _ hphony =>
    cases hid
    exact ⟨hopen, hphony⟩
  | finished => cases hid
  | failed => cases hid

/-- As many commands run as before, and those that were started, without those that stopped. -/
theorem Moves.countP_running {event : Event} (h : Moves g jobs s event s')
    (P : EdgeId → Bool) : s'.running.countP P + event.stopped?.toList.countP P =
      s.running.countP P + event.started?.toList.countP P := by
  have hmem : ∀ id, event.stopped? = some id → id ∈ s.running := fun _ => h.mem_running
  rw [h.running]
  cases event with
  | passed id => rfl
  | started id => exact List.countP_append
  | finished id | failed id =>
    have hpos : P id → 0 < s.running.countP P := fun hid =>
      List.countP_pos_iff.mpr ⟨id, hmem id rfl, hid⟩
    simp only [Event.runs, Event.stopped?, Event.started?, Option.toList_some, Option.toList_none,
      List.countP_erase, List.countP_singleton, List.countP_nil, hmem id rfl, true_and]
    split
    · next hid =>
      have hpos := hpos hid
      omega
    · rfl

end Rebuild.Schedule
