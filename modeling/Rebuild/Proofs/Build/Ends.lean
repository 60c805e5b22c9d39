import Rebuild.Proofs.Build.Course
import Rebuild.Proofs.Schedule.Grounded

/-!
# How a build ends

What the loop of a build does next is settled by the state of the build and its host. So of two
courses from one state one goes on where the other stops, and from every state that a build comes
to it goes on to its end: the build is over, or a report cannot be taken in. There are always enough
turns left, and no report is waited for in vain.
-/

namespace Rebuild.Build

open Schedule (Complete Event Flow Grounded Ready failures)

variable {ω : Type} {set : Settings ω} {b b' b₁ b₂ : Build ω} {underway : ω → Multiset EdgeId}
  {events events' : List Event} {event event' : Event}
  {result : EStateM.Result Error (Build ω) Unit}

/-! ## Determinism -/

theorem Advance.deterministic (h : Advance set b event b₁) (h' : Advance set b event' b₂) :
    event = event' ∧ b₁ = b₂ := by
  cases h with
  | passed hturn htaken =>
    cases h' with
    | passed hturn' htaken' =>
      cases hturn.symm.trans hturn'
      cases htaken.symm.trans htaken'
      exact ⟨rfl, rfl⟩
    | started hturn' => cases hturn.symm.trans hturn'
    | stopped hturn' => cases hturn.symm.trans hturn'
  | started hturn hlaunch =>
    cases h' with
    | passed hturn' => cases hturn.symm.trans hturn'
    | started hturn' hlaunch' =>
      cases hturn.symm.trans hturn'
      cases hlaunch.symm.trans hlaunch'
      exact ⟨rfl, rfl⟩
    | stopped hturn' => cases hturn.symm.trans hturn'
  | stopped hturn hawait hreceive =>
    cases h' with
    | passed hturn' => cases hturn.symm.trans hturn'
    | started hturn' => cases hturn.symm.trans hturn'
    | stopped hturn' hawait' hreceive' =>
      cases hturn.symm.trans hturn'
      cases hawait.symm.trans hawait'
      cases hreceive.symm.trans hreceive'
      exact ⟨rfl, rfl⟩

theorem Leads.eq_of_nil (h : Leads set b [] b') : b' = b := by
  generalize hevents : ([] : List Event) = events at h
  cases h with
  | refl => rfl
  | step => exact absurd hevents.symm (List.append_ne_nil_of_right_ne_nil _ (List.cons_ne_nil _ _))

theorem Leads.last (h : Leads set b (events ++ [event]) b') :
    ∃ b₁, Leads set b events b₁ ∧ Advance set b₁ event b' := by
  generalize hevents : events ++ [event] = all at h
  cases h with
  | refl => exact absurd hevents (List.append_ne_nil_of_right_ne_nil _ (List.cons_ne_nil _ _))
  | step hleads hadvance =>
    obtain ⟨rfl, rfl⟩ := List.append_singleton_inj.mp hevents
    exact ⟨_, hleads, hadvance⟩

/-- A course can be cut anywhere. -/
theorem Leads.cut {before after : List Event} (h : Leads set b (before ++ after) b') :
    ∃ b₁, Leads set b before b₁ ∧ Leads set b₁ after b' := by
  induction after using List.reverseRecOn generalizing b' with
  | nil => exact ⟨b', by rwa [List.append_nil] at h, .refl⟩
  | append_singleton after event ih =>
    rw [← List.append_assoc] at h
    obtain ⟨c, hleads, hadvance⟩ := h.last
    obtain ⟨b₁, hbefore, hafter⟩ := ih hleads
    exact ⟨b₁, hbefore, hafter.step hadvance⟩

theorem Leads.head (h : Leads set b (event :: events) b') :
    ∃ b₁, Advance set b event b₁ ∧ Leads set b₁ events b' := by
  obtain ⟨b₁, hfirst, hrest⟩ := Leads.cut (show Leads set b ([event] ++ events) b' from h)
  obtain ⟨c, hnil, hadvance⟩ := Leads.last (show Leads set b ([] ++ [event]) b₁ from hfirst)
  obtain rfl := hnil.eq_of_nil
  exact ⟨b₁, hadvance, hrest⟩

/-- Of two courses from one state one goes on where the other stops. -/
theorem Leads.comparable (h : Leads set b events b₁) (h' : Leads set b events' b₂) :
    (∃ more, events' = events ++ more ∧ Leads set b₁ more b₂) ∨
      ∃ more, events = events' ++ more ∧ Leads set b₂ more b₁ := by
  induction h with
  | refl => exact .inl ⟨events', rfl, h'⟩
  | @step events c event c' _ hadvance ih =>
    rcases ih with ⟨more, rfl, hmore⟩ | ⟨more, rfl, hmore⟩
    · cases more with
      | nil =>
        obtain rfl := hmore.eq_of_nil
        exact .inr ⟨[event], by simp, .step .refl hadvance⟩
      | cons first more =>
        obtain ⟨c'', hfirst, hrest⟩ := hmore.head
        obtain ⟨rfl, rfl⟩ := hfirst.deterministic hadvance
        exact .inl ⟨more, by simp, hrest⟩
    · exact .inr ⟨more ++ [event], by simp, hmore.step hadvance⟩

/-! ## The end -/

/-- The loop goes no further: the build is over, or a report cannot be taken in. -/
inductive Halts (set : Settings ω) (b : Build ω) : EStateM.Result Error (Build ω) Unit → Prop
  | complete {c} : turn set b = .ok .over c → Halts set b (.ok () c)
  | aborted {report c₁ c₂ e c} : turn set b = .ok .wait c₁ →
    await set c₁ = .ok (some report) c₂ → receive set report c₂ = .error e c →
    Halts set b (.error e c)

theorem Halts.not_advance (h : Halts set b result) : ¬Advance set b event b' := by
  intro hadvance
  cases h with
  | complete hover =>
    cases hadvance with
    | passed hturn => cases hover.symm.trans hturn
    | started hturn => cases hover.symm.trans hturn
    | stopped hturn => cases hover.symm.trans hturn
  | aborted hwait hreport herror =>
    cases hadvance with
    | passed hturn => cases hwait.symm.trans hturn
    | started hturn => cases hwait.symm.trans hturn
    | stopped hturn hawait hreceive =>
      cases hwait.symm.trans hturn
      cases hreport.symm.trans hawait
      cases herror.symm.trans hreceive

/-- Where nothing is queued, the build is over at once. -/
theorem turn_of_empty (hjobs : 0 < set.jobs) (hready : b.schedule.ready = [])
    (hrunning : b.schedule.running = []) (hfailed : b.schedule.failed = 0) :
    turn set b = .ok .over b := by
  have hturn : b.schedule.turn set.graph set.jobs = (.over, b.schedule) := by
    have hsame : { b.schedule with ready := [] } = b.schedule := by rw [← hready]
    rw [Schedule.turn, if_pos ⟨by rw [hrunning]; exact hjobs, hfailed⟩, Schedule.takeReady, hready,
      Schedule.takeFrom, hsame]
    dsimp only
    rw [Schedule.rest, hrunning]
    rfl
  rw [turn_eq_ok, hturn]

/-- A command that has failed counts. -/
theorem failures_ne_zero {e : EdgeId} (he : .failed e ∈ events) : failures events ≠ 0 :=
  Nat.ne_of_gt (List.countP_pos_iff.mpr ⟨_, he, rfl⟩)

/-- A build of targets that were scanned is about to begin. -/
structure Prepared (set : Settings ω) (underway : ω → Multiset EdgeId) (src : Scan.Sources)
    (found : Scan) (targets : List NodeId) (b : Build ω) : Prop where
  host : set.host.Faithful underway
  sound : Scan.Sound src found
  graph : set.graph = found.graph
  jobs : 0 < set.jobs
  ready : Ready src found targets b.schedule
  grounded : Grounded found.graph b.schedule
  same : underway b.kept.place = b.schedule.running

section Prepared

variable {src : Scan.Sources} {found : Scan} {targets : List NodeId}

/-- A schedule for targets that were scanned is prepared wherever no command is underway. -/
theorem prepared {host : Host ω} (hhost : host.Faithful underway) {g : Graph} (hg : g.Linked)
    {scanned validations : List NodeId} (hscan : Scan.Scanned src g scanned found)
    (hsub : targets ++ validations ⊆ scanned) {s : Schedule}
    (hschedule : Program.schedule found targets validations = .ok s) {kept : BuildLog.Kept ω}
    (hkept : underway kept.place = 0) (jobs : Nat) (verbose : Bool)
    (hset : set = ⟨host, found.graph, max jobs 1, verbose⟩) :
    Prepared set underway src found (targets ++ validations) ⟨s, kept⟩ := by
  obtain ⟨hsound, hknown⟩ := hscan.sound hg
  have hready := Schedule.schedule_ready hsound (fun n hn => hknown n (hsub hn)) hschedule
  subst hset
  exact ⟨hhost, hsound, rfl, Nat.lt_of_lt_of_le Nat.zero_lt_one (Nat.le_max_right jobs 1), hready,
    hready.grounded hg hscan, underway_eq_running hkept hready.planned.running⟩

namespace Prepared

/-- The accounts are in order all along a build. -/
theorem along (h : Prepared set underway src found targets b) (hleads : Leads set b events b₁) :
    (Flow found.graph b.schedule events b₁.schedule ∧ Grounded found.graph b₁.schedule) ∧
      underway b₁.kept.place = b₁.schedule.running :=
  hleads.invariant h.host
    (P := fun events s => Flow found.graph b.schedule events s ∧ Grounded found.graph s)
    ⟨h.ready.flow h.sound, h.grounded⟩
    (fun ⟨hflow, hgrounded⟩ hmoves => ⟨hflow.moves h.sound.linked (h.graph ▸ hmoves),
      hgrounded.moves hflow (h.graph ▸ hmoves)⟩) h.same

theorem flow (h : Prepared set underway src found targets b) (hleads : Leads set b events b₁) :
    Flow found.graph b.schedule events b₁.schedule :=
  (h.along hleads).1.1

/-- Wherever a build is, it goes on from there to the end of its loop. -/
theorem halts (h : Prepared set underway src found targets b) (hleads : Leads set b events b₁) :
    ∃ later b₂, Leads set b₁ later b₂ ∧
      Halts set b₂ (turns set (2 * set.graph.edges.size + 1) b) := by
  obtain ⟨all, b₂, hall, -, hends⟩ := turns_leads set (2 * set.graph.edges.size + 1) b
  obtain ⟨⟨hflow, -⟩, hsame⟩ := h.along hall
  have hhalts : Halts set b₂ (turns set (2 * set.graph.edges.size + 1) b) := by
    generalize turns set (2 * set.graph.edges.size + 1) b = result at hends
    cases hends with
    | spent hleft =>
      have hlength := hflow.length_events_le fun e he => (h.ready.planned.of_isSome he).2.2.2
      rw [h.graph] at hleft
      omega
    | complete hturn => exact .complete hturn
    | silent hturn hawait => exact absurd hawait (not_silent h.host hsame hturn)
    | aborted hturn hawait hreceive => exact .aborted hturn hawait hreceive
  rcases hleads.comparable hall with ⟨later, -, hlater⟩ | ⟨more, -, hmore⟩
  · exact ⟨later, b₂, hlater, hhalts⟩
  · cases more with
    | nil => exact ⟨[], b₂, hmore.eq_of_nil ▸ .refl, hhalts⟩
    | cons event more =>
      obtain ⟨_, hadvance, -⟩ := hmore.head
      exact absurd hadvance hhalts.not_advance

/-- A build where something happens has something queued at the beginning. -/
theorem ready_ne_nil (h : Prepared set underway src found targets b)
    (hleads : Leads set b events b₁) (hevents : events ≠ []) : b.schedule.ready ≠ [] := by
  intro hnil
  have hidle := h.ready.planned.toIdle
  cases events with
  | nil => exact hevents rfl
  | cons event events =>
    obtain ⟨_, hadvance, -⟩ := hleads.head
    exact (Halts.complete (turn_of_empty h.jobs hnil hidle.running hidle.failed)).not_advance
      hadvance

/-- Failures are counted. -/
theorem failed_eq (h : Prepared set underway src found targets b)
    (hleads : Leads set b events b₁) : b₁.schedule.failed = failures events := by
  have hstart : b.schedule.failed = 0 := h.ready.planned.failed
  have hcount := (hleads.invariant h.host
    (P := fun events s => s.failed = b.schedule.failed + failures events) rfl Schedule.failed_moves
    h.same).1
  rw [hcount, hstart, Nat.zero_add]

/-- A build that is over has done all, if no command has failed. -/
theorem complete (h : Prepared set underway src found targets b) (hleads : Leads set b events b₁)
    (hfailed : ∀ e, .failed e ∉ events) (hturn : turn set b₁ = .ok .over b₂) :
    b₂.schedule.failed = 0 ∧ Complete found targets events b₂.schedule := by
  obtain ⟨hwaits, hover⟩ := waits_of_rest hturn (.inr rfl)
  have hrunning := hover.mp rfl
  rw [h.graph] at hwaits
  have hflow := (h.flow hleads).waits hwaits
  have hzero : b₂.schedule.failed = 0 := by
    by_contra hne
    obtain ⟨e, he⟩ := hflow.ledger.failures hne
    exact hfailed e he
  refine ⟨hzero, Schedule.complete h.sound h.ready hflow hrunning ?_ hfailed⟩
  rcases hwaits with ⟨hclosed, heq⟩ | ⟨-, skipped, htakes⟩
  · rw [heq] at hrunning hzero
    exact absurd ⟨by rw [hrunning]; exact h.jobs, hzero⟩ hclosed
  · exact htakes.all rfl

/-- A build that succeeds has done all. Its last turn, or saying that there is no work to do, leaves
the log and the place as they were but for what is printed. -/
theorem succeeded (h : Prepared set underway src found targets b) (hrun : run set b = .ok () b') :
    ∃ events b₁, Leads set b events b₁ ∧ Complete found targets events b'.schedule ∧
      b'.kept.log = b₁.kept.log ∧ (b'.kept.place = b₁.kept.place ∨
        ∃ bytes, b'.kept.place = set.host.printOut bytes b₁.kept.place) := by
  by_cases hnil : b.schedule.ready = []
  · have hidle := h.ready.planned.toIdle
    have hturn := turn_of_empty h.jobs hnil hidle.running hidle.failed
    rw [run_of_empty hnil] at hrun
    obtain rfl : _ = b' := (EStateM.Result.ok.inj hrun).2
    exact ⟨[], b, .refl, (h.complete .refl (fun e => List.not_mem_nil) hturn).2, rfl,
      .inr ⟨_, rfl⟩⟩
  · rw [run_of_turns hnil] at hrun
    obtain ⟨_, b₂, hturns, hrest⟩ := Sequence.bind_eq_ok.mp hrun
    rw [Sequence.get_bind] at hrest
    have hzero : b₂.schedule.failed = 0 ∧ b' = b₂ := by
      split at hrest
      · exact absurd hrest Sequence.throw_ne_ok
      · next hzero => exact ⟨not_not.mp hzero, (Sequence.pure_eq_ok.mp hrest).2.symm⟩
    obtain ⟨hzero, rfl⟩ := hzero
    obtain ⟨events, b₁, hleads, hhalts⟩ := h.halts .refl
    rw [hturns] at hhalts
    cases hhalts with
    | complete hturn =>
      obtain ⟨hwaits, -⟩ := waits_of_rest hturn (.inr rfl)
      have hnone : ∀ e, .failed e ∉ events := fun e he =>
        failures_ne_zero he (by rw [← h.failed_eq hleads, ← hwaits.failed, hzero])
      refine ⟨events, b₁, hleads, (h.complete hleads hnone hturn).2, ?_, .inl ?_⟩
      · rw [(turn_inv hturn).2]
      · rw [(turn_inv hturn).2]

end Prepared

end Prepared

end Rebuild.Build
