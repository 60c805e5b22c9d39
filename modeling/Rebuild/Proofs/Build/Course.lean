import Mathlib.Data.Multiset.AddSub
import Rebuild.Build
import Rebuild.Proofs.BuildLog.Writing
import Rebuild.Proofs.Schedule.Moves
import Rebuild.Proofs.Sequence

/-!
# The course of a build

The loop of a build goes through events until it ends. Where commands run is up to a host, of which
only this is asked: each command that was launched is reported once, and nothing else is. On such a
host every turn of the loop is a move of the schedule, whichever command stops next and however, and
the commands underway are those that the schedule counts as running.
-/

namespace Rebuild

variable {ω : Type}

/-- A host that reports each command that was launched once. `underway` tells for which edges
commands are underway in a place. -/
structure Host.Faithful (host : Host ω) (underway : ω → Multiset EdgeId) : Prop where
  launch : ∀ job w, underway (host.launch job w) = job.edge ::ₘ underway w
  await_none : ∀ w w', host.await w = (none, w') → underway w = 0
  await_some : ∀ w report w', host.await w = (some report, w') →
    underway w = report.edge ::ₘ underway w'
  printOut : ∀ bytes w, underway (host.printOut bytes w) = underway w
  printError : ∀ bytes w, underway (host.printError bytes w) = underway w
  openFile : ∀ path replace w opened w',
    host.logStore.openFile path replace w = .ok (opened, w') → underway w' = underway w
  append : ∀ handle bytes w w',
    host.logStore.append handle bytes w = .ok w' → underway w' = underway w

namespace Build

open Schedule (Event Moves Waits)

/-! ## Events -/

/-- What a report says about the edge. -/
def eventOf (report : JobReport) : Event :=
  match report.outcome with
  | .ended true _ => .finished report.edge
  | .ended false _ | .notRun _ => .failed report.edge

/-- A turn of the loop after which it goes on. -/
inductive Advance (set : Settings ω) (b : Build ω) : Event → Build ω → Prop
  | passed {id b'} : turn set b = .ok .again b' →
    (b.schedule.takeReady set.graph).1 = some id → Advance set b (.passed id) b'
  | started {id b₁ b'} : turn set b = .ok (.start id) b₁ → launch set id b₁ = .ok () b' →
    Advance set b (.started id) b'
  | stopped {report b₁ b₂ b'} : turn set b = .ok .wait b₁ → await set b₁ = .ok (some report) b₂ →
    receive set report b₂ = .ok () b' → Advance set b (eventOf report) b'

/-- The loop comes from one state to another through events. -/
inductive Leads (set : Settings ω) (b : Build ω) : List Event → Build ω → Prop
  | refl : Leads set b [] b
  | step {events b' event b''} : Leads set b events b' → Advance set b' event b'' →
    Leads set b (events ++ [event]) b''

/-- How the loop ends: the build is over, no report comes, a report cannot be taken in, or there are
no turns left. -/
inductive Ends (set : Settings ω) (b : Build ω) (left : Nat) :
    EStateM.Result Error (Build ω) Unit → Prop
  | spent : left = 0 → Ends set b left (.ok () b)
  | complete {b'} : turn set b = .ok .over b' → Ends set b left (.ok () b')
  | silent {b₁ b'} : turn set b = .ok .wait b₁ → await set b₁ = .ok none b' →
    Ends set b left (.ok () b')
  | aborted {report b₁ b₂ e b'} : turn set b = .ok .wait b₁ →
    await set b₁ = .ok (some report) b₂ → receive set report b₂ = .error e b' →
    Ends set b left (.error e b')

variable {set : Settings ω} {b b' b'' : Build ω} {underway : ω → Multiset EdgeId}

theorem Leads.trans {events events' : List Event} (h : Leads set b events b')
    (h' : Leads set b' events' b'') : Leads set b (events ++ events') b'' := by
  induction h' with
  | refl => rwa [List.append_nil]
  | step _ hadvance ih =>
    rw [← List.append_assoc]
    exact ih.step hadvance

/-- A turn comes from the schedule, and leaves the rest of a build as it was. -/
theorem turn_eq_ok (set : Settings ω) (b : Build ω) :
    turn set b = .ok (b.schedule.turn set.graph set.jobs).1
      { b with schedule := (b.schedule.turn set.graph set.jobs).2 } := rfl

theorem await_eq_ok (set : Settings ω) (b : Build ω) :
    await set b = .ok (set.host.await b.kept.place).1
      { b with kept := { b.kept with place := (set.host.await b.kept.place).2 } } := rfl

theorem launch_eq_ok (set : Settings ω) (id : EdgeId) (b : Build ω) :
    ∃ place, launch set id b = .ok () { b with kept := { b.kept with place := place } } ∧
      place = set.host.launch (job set.graph id) (set.host.printOut
        (Utf8.encode (progressLine set b.schedule id).toList) b.kept.place) :=
  ⟨_, rfl, rfl⟩

theorem turn_inv {decision : Schedule.Turn} (h : turn set b = .ok decision b') :
    b.schedule.turn set.graph set.jobs = (decision, b'.schedule) ∧ b'.kept = b.kept := by
  rw [turn_eq_ok] at h
  cases h
  exact ⟨rfl, rfl⟩

/-- A turn that looks again has taken a phony edge from the queue. -/
theorem takes_of_again (h : turn set b = .ok .again b') : ∃ id s' skipped,
    Schedule.Open set.jobs b.schedule ∧ b.schedule.takeReady set.graph = (some id, s') ∧
      Schedule.Takes set.graph b.schedule b.schedule.ready (some id) s' skipped ∧
      (set.graph.edge id).isPhony ∧ b'.schedule = s'.finish set.graph id := by
  have hturn := (turn_inv h).1
  rcases Schedule.turn_eq set.graph set.jobs b.schedule with
    ⟨id, s', skipped, hopen, htaken, htakes, ⟨hphony, heq⟩ | ⟨-, heq⟩⟩ | ⟨s', -, heq⟩
  · rw [heq, Prod.mk.injEq] at hturn
    exact ⟨id, s', skipped, hopen, htaken, htakes, hphony, hturn.2.symm⟩
  · rw [heq] at hturn
    cases hturn
  · rw [heq, Schedule.rest] at hturn
    split at hturn <;> cases hturn

/-- A turn that starts a command has taken its edge from the queue. -/
theorem takes_of_start {id : EdgeId} (h : turn set b = .ok (.start id) b') : ∃ s' skipped,
    Schedule.Open set.jobs b.schedule ∧
      Schedule.Takes set.graph b.schedule b.schedule.ready (some id) s' skipped ∧
      (set.graph.edge id).isPhony = false ∧
      b'.schedule = { s' with running := s'.running ++ [id], started := s'.started + 1 } := by
  have hturn := (turn_inv h).1
  rcases Schedule.turn_eq set.graph set.jobs b.schedule with
    ⟨id, s', skipped, hopen, -, htakes, ⟨-, heq⟩ | ⟨hphony, heq⟩⟩ | ⟨s', -, heq⟩
  · rw [heq] at hturn
    cases hturn
  · rw [heq, Prod.mk.injEq, Schedule.Turn.start.injEq] at hturn
    obtain ⟨rfl, hschedule⟩ := hturn
    exact ⟨s', skipped, hopen, htakes, hphony, hschedule.symm⟩
  · rw [heq, Schedule.rest] at hturn
    split at hturn <;> cases hturn

/-- A turn that starts nothing either waits for a running command or ends the loop. -/
theorem waits_of_rest {decision : Schedule.Turn} (h : turn set b = .ok decision b')
    (hrest : decision = .wait ∨ decision = .over) :
    Waits set.graph set.jobs b.schedule b'.schedule ∧
      (decision = .over ↔ b'.schedule.running = []) := by
  have hturn := (turn_inv h).1
  rcases Schedule.turn_eq set.graph set.jobs b.schedule with
    ⟨id, s', skipped, -, -, -, ⟨-, heq⟩ | ⟨-, heq⟩⟩ | ⟨s', hwaits, heq⟩
  · rw [heq, Prod.mk.injEq] at hturn
    simp [← hturn.1] at hrest
  · rw [heq, Prod.mk.injEq] at hturn
    simp [← hturn.1] at hrest
  · rw [heq, Prod.mk.injEq] at hturn
    obtain ⟨rfl, rfl⟩ := hturn
    refine ⟨hwaits, ?_⟩
    unfold Schedule.rest
    cases hrunning : b'.schedule.running <;> simp

/-- The loop goes through events, one a turn, and then ends. -/
theorem turns_leads (set : Settings ω) (n : Nat) (b : Build ω) :
    ∃ events b', Leads set b events b' ∧ events.length ≤ n ∧
      Ends set b' (n - events.length) (turns set n b) := by
  induction n generalizing b with
  | zero => exact ⟨[], b, .refl, Nat.le_refl _, .spent rfl⟩
  | succ n ih =>
    have hnext : ∀ {event b₁}, Advance set b event b₁ → turns set (n + 1) b = turns set n b₁ →
        ∃ events b', Leads set b events b' ∧ events.length ≤ n + 1 ∧
          Ends set b' (n + 1 - events.length) (turns set (n + 1) b) := by
      intro event b₁ hadvance hturns
      obtain ⟨events, b', hleads, hlength, hends⟩ := ih b₁
      refine ⟨event :: events, b', (Leads.step .refl hadvance).trans hleads, ?_, ?_⟩
      · exact Nat.succ_le_succ hlength
      · rw [hturns, List.length_cons, Nat.succ_sub_succ]
        exact hends
    obtain ⟨decision, b₁, hturn⟩ : ∃ decision b₁, turn set b = .ok decision b₁ :=
      ⟨_, _, turn_eq_ok set b⟩
    cases decision with
    | again =>
      obtain ⟨id, _, _, _, htaken, _⟩ := takes_of_again hturn
      exact hnext (.passed hturn (congrArg Prod.fst htaken)) (Sequence.bind_of_ok _ hturn)
    | start id =>
      obtain ⟨place, hlaunch, -⟩ := launch_eq_ok set id b₁
      exact hnext (.started hturn hlaunch)
        ((Sequence.bind_of_ok _ hturn).trans (Sequence.bind_of_ok _ hlaunch))
    | «over» =>
      have hend : turns set (n + 1) b = .ok () b₁ := Sequence.bind_of_ok _ hturn
      exact ⟨[], b, .refl, Nat.zero_le _, hend ▸ .complete hturn⟩
    | wait =>
      obtain ⟨report, b₂, hawait⟩ : ∃ report b₂, await set b₁ = .ok report b₂ :=
        ⟨_, _, await_eq_ok set b₁⟩
      cases report with
      | none =>
        have hend : turns set (n + 1) b = .ok () b₂ :=
          (Sequence.bind_of_ok _ hturn).trans (Sequence.bind_of_ok _ hawait)
        exact ⟨[], b, .refl, Nat.zero_le _, hend ▸ .silent hturn hawait⟩
      | some report =>
        have hstep : turns set (n + 1) b = (receive set report >>= fun _ => turns set n) b₂ :=
          (Sequence.bind_of_ok _ hturn).trans (Sequence.bind_of_ok _ hawait)
        cases hreceive : receive set report b₂ with
        | ok _ b₃ =>
          exact hnext (.stopped hturn hawait hreceive)
            (hstep.trans (Sequence.bind_of_ok _ hreceive))
        | error e b₃ =>
          refine ⟨[], b, .refl, Nat.zero_le _, ?_⟩
          rw [hstep, Sequence.bind_of_error _ hreceive]
          exact .aborted hturn hawait hreceive

/-! ## What steps leave as it was -/

/-- Only what is known about files changes, and what is kept. -/
structure Quiet (underway : ω → Multiset EdgeId) (b b' : Build ω) : Prop where
  schedule : ∃ survey : Survey, survey.edges = b.schedule.survey.edges ∧
    b'.schedule = { b.schedule with survey := survey }
  underway : underway b'.kept.place = underway b.kept.place

theorem Quiet.refl (b : Build ω) : Quiet underway b b := ⟨⟨_, rfl, rfl⟩, rfl⟩

theorem Quiet.trans (h : Quiet underway b b') (h' : Quiet underway b' b'') :
    Quiet underway b b'' := by
  obtain ⟨⟨survey, hedges, hschedule⟩, hplace⟩ := h
  obtain ⟨⟨survey', hedges', hschedule'⟩, hplace'⟩ := h'
  refine ⟨⟨survey', ?_, by rw [hschedule', hschedule]⟩, hplace'.trans hplace⟩
  rw [hedges', hschedule]
  exact hedges

section Frames

open Sequence

/-- The commands underway stay the same while the build log is worked on. -/
private def Apart (underway : ω → Multiset EdgeId) (k k' : BuildLog.Kept ω) : Prop :=
  underway k'.place = underway k.place

private theorem Apart.refl (k : BuildLog.Kept ω) : Apart underway k k := rfl

private theorem Apart.trans (k k' k'' : BuildLog.Kept ω) (h : Apart underway k k')
    (h' : Apart underway k' k'') : Apart underway k k'' :=
  Eq.trans h' h

private theorem modifyPlace_quiet {f : ω → ω} (hf : ∀ w, underway (f w) = underway w) :
    Keeps (Quiet underway) (modifyPlace f) :=
  .modify fun b => ⟨⟨_, rfl, rfl⟩, hf b.kept.place⟩

private theorem withKept_quiet {α : Type} {act : EStateM Error (BuildLog.Kept ω) α}
    (hact : Keeps (Apart underway) act) : Keeps (Quiet underway) (withKept act) := by
  intro b
  have hkept := hact b.kept
  unfold withKept
  cases hresult : act b.kept with
  | ok a kept =>
    rw [hresult] at hkept
    exact ⟨⟨_, rfl, rfl⟩, hkept⟩
  | error e kept =>
    rw [hresult] at hkept
    exact ⟨⟨_, rfl, rfl⟩, hkept⟩

variable (hhost : set.host.Faithful underway)
include hhost

private theorem record_apart (path : String) (entry : LogEntry) :
    Keeps (Apart underway) (BuildLog.record set.host.logStore path entry) := by
  have hwriting : BuildLog.Writing set.host.logStore (Apart underway) :=
    ⟨.refl, .trans, fun _ _ => rfl, fun _ path replace _ _ h => hhost.openFile path replace _ _ _ h,
      fun _ handle bytes _ h => hhost.append handle bytes _ _ h⟩
  exact hwriting.record fun _ => rfl

omit hhost in
private theorem restatOutputs_quiet (outs : List NodeId) :
    Keeps (Quiet underway) (restatOutputs set outs) := by
  induction outs with
  | nil => exact .pure .refl _
  | cons out outs ih =>
    refine .bind (fun _ _ _ => .trans) (.get .refl) fun b => ?_
    dsimp only
    split
    · exact .bind (fun _ _ _ => .trans) (.throw .refl _) fun _ => ih
    · exact .bind (fun _ _ _ => .trans) (.modify fun b =>
        ⟨⟨b.schedule.survey.modifyNode out _, rfl, rfl⟩, rfl⟩) fun _ => ih

private theorem recordOutputs_quiet (report : JobReport) (outs : List NodeId) :
    Keeps (Quiet underway) (recordOutputs set report outs) := by
  induction outs with
  | nil => exact .pure .refl _
  | cons out outs ih =>
    exact .bind (fun _ _ _ => .trans) (.get .refl) fun b =>
      .bind (fun _ _ _ => .trans) (withKept_quiet (record_apart hhost _ _)) fun _ => ih

/-- Taking in a report either ends the build, its command noted as stopped and nothing else done, or
is what the schedule makes of it. -/
theorem receive_eq (report : JobReport) (b : Build ω) :
    match receive set report b with
    | .ok _ b' => underway b'.kept.place = underway b.kept.place ∧
      ((∃ survey : Survey, survey.edges = b.schedule.survey.edges ∧
        eventOf report = .finished report.edge ∧ b'.schedule = Schedule.finish set.graph report.edge
          { b.schedule.stopped set.graph report.edge with survey := survey }) ∨
        eventOf report = .failed report.edge ∧
          b'.schedule = (b.schedule.stopped set.graph report.edge).fail)
    | .error _ b' =>
      Quiet underway { b with schedule := b.schedule.stopped set.graph report.edge } b' := by
  have hsurvey : (b.schedule.stopped set.graph report.edge).survey = b.schedule.survey := by
    rw [Schedule.stopped_frame]
  have hstop : ∀ rest : Unit → Building ω Unit,
      (modifySchedule (·.stopped set.graph report.edge) >>= rest) b =
        rest () { b with schedule := b.schedule.stopped set.graph report.edge } := fun rest => rfl
  unfold receive
  dsimp only
  rw [hstop]
  generalize hb₁ : ({ b with schedule := b.schedule.stopped set.graph report.edge } : Build ω) = b₁
  cases houtcome : report.outcome with
  | notRun cause =>
    subst hb₁
    exact ⟨rfl, .inr ⟨by rw [eventOf, houtcome], rfl⟩⟩
  | ended success output =>
    cases success with
    | false =>
      subst hb₁
      exact ⟨hhost.printError _ _, .inr ⟨by rw [eventOf, houtcome], rfl⟩⟩
    | true =>
      -- what comes before the edge finishes is quiet
      generalize hnoted : (do
        modifyPlace (set.host.printOut output)
        restatOutputs set (set.graph.edge report.edge).outs
        recordOutputs set report (set.graph.edge report.edge).outs : Building ω Unit) = noted
      have hquiet : Keeps (Quiet underway) noted := by
        rw [← hnoted]
        exact .bind (fun _ _ _ => .trans) (modifyPlace_quiet (hhost.printOut output)) fun _ =>
          .bind (fun _ _ _ => .trans) (restatOutputs_quiet _) fun _ => recordOutputs_quiet hhost _ _
      have hwhole : (do
          modifyPlace (set.host.printOut output)
          restatOutputs set (set.graph.edge report.edge).outs
          recordOutputs set report (set.graph.edge report.edge).outs
          modifySchedule (·.finish set.graph report.edge) : Building ω Unit) =
          noted >>= fun _ => modifySchedule (·.finish set.graph report.edge) := by
        rw [← hnoted]
        simp only [bind_assoc]
      dsimp only
      rw [hwhole]
      cases hresult : noted b₁ with
      | error e b₂ =>
        rw [bind_of_error _ hresult]
        exact hquiet.error hresult
      | ok _ b₂ =>
        rw [bind_of_ok _ hresult]
        obtain ⟨⟨survey, hedges, hschedule⟩, hplace⟩ := hquiet.ok hresult
        subst hb₁
        refine ⟨hplace, .inl ⟨survey, hedges.trans (congrArg Survey.edges hsurvey), ?_, ?_⟩⟩
        · rw [eventOf, houtcome]
        · exact congrArg (Schedule.finish set.graph report.edge) hschedule

end Frames

/-! ## Along the loop -/

/-- Before a build no command is underway, and none counts as running. -/
theorem underway_eq_running {s : Schedule} {kept : BuildLog.Kept ω}
    (hkept : underway kept.place = 0) (hrunning : s.running = []) :
    underway kept.place = s.running := by
  rw [hkept, hrunning]
  rfl

section Course

variable (hhost : set.host.Faithful underway)
include hhost

/-- The command that stops next was running. -/
theorem await_some_inv {b₁ b₂ : Build ω} {report : JobReport}
    (hsame : underway b.kept.place = b.schedule.running) (hturn : turn set b = .ok .wait b₁)
    (hawait : await set b₁ = .ok (some report) b₂) :
    Waits set.graph set.jobs b.schedule b₂.schedule ∧ report.edge ∈ b₂.schedule.running ∧
      underway b₂.kept.place = (b₂.schedule.running.erase report.edge : List EdgeId) := by
  obtain ⟨hwaits, -⟩ := waits_of_rest hturn (.inl rfl)
  rw [await_eq_ok, EStateM.Result.ok.injEq] at hawait
  obtain ⟨hreport, rfl⟩ := hawait
  have hplace := hhost.await_some b₁.kept.place report _ (Prod.ext hreport rfl)
  rw [(turn_inv hturn).2, hsame, ← hwaits.running] at hplace
  refine ⟨hwaits, ?_, ?_⟩
  · rw [← Multiset.mem_coe, hplace]
    exact Multiset.mem_cons_self _ _
  · rw [← Multiset.coe_erase, hplace, Multiset.erase_cons_head, ← (turn_inv hturn).2]

/-- A turn after which the loop goes on is a move of the schedule. -/
theorem Advance.moves {event : Event} (hsame : underway b.kept.place = b.schedule.running)
    (h : Advance set b event b') : Moves set.graph set.jobs b.schedule event b'.schedule ∧
      underway b'.kept.place = b'.schedule.running := by
  cases h with
  | @passed id _ hturn htaken =>
    obtain ⟨id', s', skipped, hopen, htaken', htakes, hphony, hschedule⟩ := takes_of_again hturn
    rw [htaken', Option.some.injEq] at htaken
    subst htaken
    obtain ⟨more, hmore⟩ := Schedule.finish_frame set.graph id' s'
    refine ⟨hschedule ▸ .passed hopen htakes hphony, ?_⟩
    rw [(turn_inv hturn).2, hsame, hschedule, hmore, htakes.rest]
  | @started id b₁ _ hturn hlaunch =>
    obtain ⟨s', skipped, hopen, htakes, hphony, hschedule⟩ := takes_of_start hturn
    obtain ⟨place, hlaunch', hplace⟩ := launch_eq_ok set id b₁
    rw [hlaunch', EStateM.Result.ok.injEq] at hlaunch
    obtain ⟨-, rfl⟩ := hlaunch
    refine ⟨hschedule ▸ .started hopen htakes hphony, ?_⟩
    show underway place = b₁.schedule.running
    rw [hplace, hhost.launch, hhost.printOut, (turn_inv hturn).2, hsame, hschedule, htakes.rest]
    exact Multiset.coe_eq_coe.mpr (List.perm_append_singleton id b.schedule.running).symm
  | @stopped report b₁ b₂ _ hturn hawait hreceive =>
    obtain ⟨hwaits, hmem, hunderway⟩ := await_some_inv hhost hsame hturn hawait
    have hend := receive_eq hhost report b₂
    rw [hreceive] at hend
    obtain ⟨hplace, ⟨survey, hedges, hevent, hschedule⟩ | ⟨hevent, hschedule⟩⟩ := hend
    · rw [hevent, hplace, hunderway, hschedule]
      refine ⟨.finished hwaits hmem hedges, ?_⟩
      obtain ⟨more, hmore⟩ := Schedule.finish_frame set.graph report.edge
        { b₂.schedule.stopped set.graph report.edge with survey := survey }
      rw [hmore]
      exact congrArg _ (Schedule.stopped_running ..).symm
    · rw [hevent, hplace, hunderway, hschedule]
      exact ⟨.failed hwaits hmem, congrArg _ (Schedule.stopped_running ..).symm⟩

/-- What every move of the schedule keeps holds all along the loop. -/
theorem Leads.invariant {events : List Event} {P : List Event → Schedule → Prop}
    (hstart : P [] b.schedule) (hmoves : ∀ {events s event s'}, P events s →
      Moves set.graph set.jobs s event s' → P (events ++ [event]) s')
    (hsame : underway b.kept.place = b.schedule.running) (h : Leads set b events b') :
    P events b'.schedule ∧ underway b'.kept.place = b'.schedule.running := by
  induction h with
  | refl => exact ⟨hstart, hsame⟩
  | step _ hadvance ih =>
    obtain ⟨hP, hrun⟩ := ih
    obtain ⟨hmove, hrun'⟩ := hadvance.moves hhost hrun
    exact ⟨hmoves hP hmove, hrun'⟩

/-- When no command is underway, no report is waited for. -/
theorem not_silent {b₁ : Build ω} (hsame : underway b.kept.place = b.schedule.running)
    (hturn : turn set b = .ok .wait b₁) : await set b₁ ≠ .ok none b' := by
  intro hawait
  obtain ⟨hwaits, hover⟩ := waits_of_rest hturn (.inl rfl)
  rw [await_eq_ok, EStateM.Result.ok.injEq] at hawait
  have hplace := hhost.await_none b₁.kept.place _ (Prod.ext hawait.1 rfl)
  rw [(turn_inv hturn).2, hsame, Multiset.coe_eq_zero] at hplace
  exact absurd (hover.mpr (hwaits.running.trans hplace)) (by simp)

end Course

/-! ## Whole builds -/

theorem run_of_empty (h : b.schedule.ready = []) :
    run set b = print set "knit: no work to do.\n" b := by
  unfold run
  rw [Sequence.get_bind, h]
  rfl

theorem run_of_turns (h : b.schedule.ready ≠ []) :
    run set b = (turns set (2 * set.graph.edges.size + 1) >>= fun _ => do
      let failed := (← get).schedule.failed
      if failed ≠ 0 then throw (.buildFailed failed)) b := by
  unfold run
  rw [Sequence.get_bind, if_neg (by simpa using h)]

/-- The state in which a result leaves a build. -/
def final : EStateM.Result Error (Build ω) Unit → Build ω
  | .ok _ b | .error _ b => b

/-- What fails after the turns of a build leaves it as it is. -/
theorem final_run (h : b.schedule.ready ≠ []) :
    final (run set b) = final (turns set (2 * set.graph.edges.size + 1) b) := by
  rw [run_of_turns h]
  cases hturns : turns set (2 * set.graph.edges.size + 1) b with
  | error e b' => rw [Sequence.bind_of_error _ hturns]
  | ok _ b' =>
    rw [Sequence.bind_of_ok _ hturns, Sequence.get_bind]
    split <;> rfl

/-- The states of a build between turns and at its end. -/
inductive Reaches (set : Settings ω) (b : Build ω) : Build ω → Prop
  | turns {events b'} : Leads set b events b' → Reaches set b b'
  | run : Reaches set b (final (run set b))

/-- All commands that stop during a build have succeeded, and are recorded without error. -/
def Succeeds (set : Settings ω) (b : Build ω) : Prop :=
  ∀ {events b₁ b₂ b₃ report}, Leads set b events b₁ → turn set b₁ = .ok .wait b₂ →
    await set b₂ = .ok (some report) b₃ →
    (∃ output, report.outcome = .ended true output) ∧ ∃ b₄, receive set report b₃ = .ok () b₄

end Build

end Rebuild
