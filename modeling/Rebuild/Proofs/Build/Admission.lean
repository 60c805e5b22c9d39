import Rebuild.Proofs.Build.Steady
import Rebuild.Proofs.Schedule.Need

/-!
# Admission

However commands come to an end, no more of them are underway than jobs are allowed, and no more of
a pool than it is deep. Pools count exactly the commands underway, so that none is given back that
was not taken. Phony edges and pools without a bound do not take part.
-/

namespace Rebuild

namespace Schedule

variable {g : Graph} {jobs : Nat} {s s' : Schedule}

/-- Running commands have places, are no more than jobs are allowed, and belong to edges that have
commands. -/
structure Admitted (g : Graph) (jobs : Nat) (s : Schedule) : Prop where
  placed : Placed g s
  jobs : s.running.length ≤ jobs
  commands : ∀ e ∈ s.running, (g.edge e).isPhony = false

namespace Admitted

theorem idle {survey : Survey} (h : Idle survey s) : Admitted g jobs s where
  placed := .idle h.loads h.running
  jobs := h.running ▸ Nat.zero_le _
  commands e he := by
    rw [h.running] at he
    cases he

theorem congr (h : Admitted g jobs s) (hloads : s'.loads = s.loads)
    (hrunning : s'.running = s.running) (hready : s'.ready = s.ready) : Admitted g jobs s' where
  placed := h.placed.congr hloads hrunning (hready.trans (List.append_nil _).symm)
  jobs := hrunning ▸ h.jobs
  commands := hrunning ▸ h.commands

theorem waits (h : Admitted g jobs s) (hwaits : Waits g jobs s s') : Admitted g jobs s' where
  placed := h.placed.waits hwaits
  jobs := hwaits.running ▸ h.jobs
  commands := hwaits.running ▸ h.commands

theorem stopped (h : Admitted g jobs s) {id : EdgeId} (hid : id ∈ s.running) :
    Admitted g jobs (s.stopped g id) where
  placed := h.placed.stopped hid
  jobs := by
    rw [stopped_running]
    exact Nat.le_trans List.length_erase_le h.jobs
  commands e he := by
    rw [stopped_running] at he
    exact h.commands e (List.mem_of_mem_erase he)

theorem moves {event : Event} (h : Admitted g jobs s) (hmoves : Moves g jobs s event s') :
    Admitted g jobs s' := by
  have hrunning := hmoves.running
  have hstarted : ∀ id, event.started? = some id → Open jobs s ∧ (g.edge id).isPhony = false :=
    fun _ => hmoves.of_started
  refine ⟨h.placed.moves hmoves, ?_, fun e he => ?_⟩
  · rw [hrunning]
    cases event with
    | passed id => exact h.jobs
    | started id =>
      obtain ⟨⟨hless, -⟩, -⟩ := hstarted id rfl
      rw [Event.runs, List.length_append, List.length_singleton]
      exact hless
    | finished id | failed id => exact Nat.le_trans List.length_erase_le h.jobs
  · rw [hrunning] at he
    cases event with
    | passed id => exact h.commands e he
    | started id =>
      rcases List.mem_append.mp he with he | he
      · exact h.commands e he
      · rw [List.mem_singleton.mp he]
        exact (hstarted id rfl).2
    | finished id | failed id => exact h.commands e (List.mem_of_mem_erase he)

end Admitted

end Schedule

namespace Build

open Schedule (Event Admitted)

variable {ω : Type} {set : Settings ω} {b b' : Build ω} {underway : ω → Multiset EdgeId}

/-- What a build has underway when pools count what runs. -/
structure Admits (set : Settings ω) (underway : ω → Multiset EdgeId) (b : Build ω) : Prop where
  jobs : (underway b.kept.place).card ≤ set.jobs
  commands : ∀ e ∈ underway b.kept.place, (set.graph.edge e).isPhony = false
  counted : ∀ p, (set.graph.pool p).depth ≠ 0 → (b.schedule.loads.get p).running =
    (underway b.kept.place).countP fun e => (set.graph.edge e).pool = some p
  bounded : ∀ p, (set.graph.pool p).depth ≠ 0 →
    (b.schedule.loads.get p).running ≤ (set.graph.pool p).depth
  unbounded : ∀ p, (set.graph.pool p).depth = 0 → (b.schedule.loads.get p).running = 0

/-- The commands of a list that are of a pool. -/
private theorem countP_pool {g : Graph} {running : List EdgeId} {p : PoolId}
    (hcommands : ∀ e ∈ running, (g.edge e).isPhony = false) (hp : (g.pool p).depth ≠ 0) :
    running.countP (Schedule.poolOf? g · = some p) =
      running.countP fun e => (g.edge e).pool = some p := by
  refine List.countP_congr fun e he => ?_
  simp [Schedule.poolOf?_eq_some, hcommands e he, hp]

theorem Admits.of_admitted (h : Admitted set.graph set.jobs b.schedule)
    (hsame : underway b.kept.place = b.schedule.running) : Admits set underway b where
  jobs := by
    rw [hsame, Multiset.coe_card]
    exact h.jobs
  commands e he := by
    rw [hsame] at he
    exact h.commands e he
  counted p hp := by
    rw [hsame, Multiset.coe_countP, h.placed.counted, countP_pool h.commands hp]
  bounded := h.placed.bounded
  unbounded p hp := by
    rw [h.placed.counted, List.countP_eq_zero]
    intro e _
    simp [Schedule.poolOf?_eq_some, hp]

section Reaches

variable (hhost : set.host.Faithful underway)
include hhost

/-- However the loop ends, what is underway then is admitted. -/
private theorem ends_admitted {left : Nat} {result : EStateM.Result Error (Build ω) Unit}
    (h : Admitted set.graph set.jobs b.schedule)
    (hsame : underway b.kept.place = b.schedule.running) (hends : Ends set b left result) :
    Admitted set.graph set.jobs (final result).schedule ∧
      underway (final result).kept.place = (final result).schedule.running := by
  cases hends with
  | spent => exact ⟨h, hsame⟩
  | @complete b' hturn =>
    obtain ⟨hwaits, -⟩ := waits_of_rest hturn (.inr rfl)
    refine ⟨h.waits hwaits, ?_⟩
    show underway b'.kept.place = b'.schedule.running
    rw [(turn_inv hturn).2, hsame, hwaits.running]
  | silent hturn hawait => exact absurd hawait (not_silent hhost hsame hturn)
  | @aborted report b₁ b₂ e b' hturn hawait hreceive =>
    obtain ⟨hwaits, hmem, hunderway⟩ := await_some_inv hhost hsame hturn hawait
    have hquiet := receive_eq hhost report b₂
    rw [hreceive] at hquiet
    obtain ⟨⟨survey, -, hschedule⟩, hplace⟩ := hquiet
    have hstopped := (h.waits hwaits).stopped hmem
    show Admitted set.graph set.jobs b'.schedule ∧ underway b'.kept.place = b'.schedule.running
    rw [hschedule]
    refine ⟨hstopped.congr rfl rfl rfl, hplace.trans (hunderway.trans ?_)⟩
    exact congrArg _ (Schedule.stopped_running ..).symm

theorem reaches_admitted (h : Admitted set.graph set.jobs b.schedule)
    (hsame : underway b.kept.place = b.schedule.running) (hreaches : Reaches set b b') :
    Admitted set.graph set.jobs b'.schedule ∧ underway b'.kept.place = b'.schedule.running := by
  have hleads : ∀ {events b₁}, Leads set b events b₁ →
      Admitted set.graph set.jobs b₁.schedule ∧ underway b₁.kept.place = b₁.schedule.running :=
    fun hleads => hleads.invariant hhost (P := fun _ => Admitted set.graph set.jobs) h .moves hsame
  cases hreaches with
  | turns hleads' => exact hleads hleads'
  | run =>
    by_cases hready : b.schedule.ready = []
    · rw [run_of_empty hready]
      exact ⟨h, (hhost.printOut _ _).trans hsame⟩
    · rw [final_run hready]
      obtain ⟨events, b₁, hleads', -, hends⟩ := turns_leads set _ b
      obtain ⟨hadmitted, hsame'⟩ := hleads hleads'
      exact ends_admitted hhost hadmitted hsame' hends

/-- The pool of a command that stops counts it until then. -/
private theorem load_pos_of_stops (h : Admitted set.graph set.jobs b.schedule)
    (hsame : underway b.kept.place = b.schedule.running) {b₁ b₂ : Build ω} {report : JobReport}
    (hturn : turn set b = .ok .wait b₁) (hawait : await set b₁ = .ok (some report) b₂) {p : PoolId}
    (hpool : (set.graph.edge report.edge).pool = some p) (hp : (set.graph.pool p).depth ≠ 0) :
    0 < (b₂.schedule.loads.get p).running := by
  obtain ⟨hwaits, hmem, -⟩ := await_some_inv hhost hsame hturn hawait
  have hadmitted := h.waits hwaits
  rw [hadmitted.placed.counted, countP_pool hadmitted.commands hp]
  exact List.countP_pos_iff.mpr ⟨report.edge, hmem, by simpa using hpool⟩

/-- A turn changes what a pool counts only by its own commands that are started and stop. -/
private theorem load_advance (h : Admitted set.graph set.jobs b.schedule)
    (hsame : underway b.kept.place = b.schedule.running) {event : Event}
    (hadvance : Advance set b event b') {p : PoolId} (hp : (set.graph.pool p).depth ≠ 0) :
    (b'.schedule.loads.get p).running +
        event.stopped?.toList.countP (fun e => (set.graph.edge e).pool = some p) =
      (b.schedule.loads.get p).running +
        event.started?.toList.countP (fun e => (set.graph.edge e).pool = some p) := by
  obtain ⟨hmoves, -⟩ := hadvance.moves hhost hsame
  have hadmitted := h.moves hmoves
  rw [hadmitted.placed.counted, countP_pool hadmitted.commands hp, h.placed.counted,
    countP_pool h.commands hp]
  exact hmoves.countP_running _

end Reaches

/-- In every state of a build, whatever was scanned and in whichever order commands end and how: at
most `jobs` commands are underway, and at least one may be; a pool that has a depth counts exactly
its commands underway, which are no more than the depth; others count none. A turn changes what a
pool counts by its own commands only, phony edges having none, and what is given back was counted.
-/
theorem admission {host : Host ω} (hhost : host.Faithful underway) {found : Scan}
    {targets validations : List NodeId} {s : Schedule} {kept : BuildLog.Kept ω}
    (hschedule : Program.schedule found targets validations = .ok s)
    (hkept : underway kept.place = 0) (jobs : Nat) (verbose : Bool)
    (hset : set = ⟨host, found.graph, max jobs 1, verbose⟩) (hreaches : Reaches set ⟨s, kept⟩ b) :
    Admits set underway b ∧
    (∀ b₁ b₂ report p, turn set b = .ok .wait b₁ → await set b₁ = .ok (some report) b₂ →
      (set.graph.edge report.edge).pool = some p → (set.graph.pool p).depth ≠ 0 →
      0 < (b₂.schedule.loads.get p).running) ∧
    ∀ event b' p, Advance set b event b' → (set.graph.pool p).depth ≠ 0 →
      (b'.schedule.loads.get p).running +
          event.stopped?.toList.countP (fun e => (set.graph.edge e).pool = some p) =
        (b.schedule.loads.get p).running +
          event.started?.toList.countP (fun e => (set.graph.edge e).pool = some p) := by
  subst hset
  have hidle := Schedule.schedule_idle hschedule
  have hsame := underway_eq_running hkept hidle.running
  obtain ⟨hadmitted, hsame'⟩ := reaches_admitted hhost (.idle hidle) hsame hreaches
  exact ⟨.of_admitted hadmitted hsame',
    fun _ _ _ _ hturn hawait hpool hp =>
      load_pos_of_stops hhost hadmitted hsame' hturn hawait hpool hp,
    fun _ _ _ hadvance hp => load_advance hhost hadmitted hsame' hadvance hp⟩

/-- With four jobs, and a pool of depth one for both commands. -/
theorem admission_twins : ∃ set : Settings (List EdgeId), set.jobs = 4 ∧
    Admits set (fun queue => (queue : Multiset EdgeId))
      (final (run set ⟨twinsSchedule, .inMemory, []⟩)) :=
  ⟨⟨.steady noFiles, twinsScan.graph, max 4 1, false⟩, rfl,
    (admission (Host.steady_faithful noFiles) twins_scheduled rfl 4 false rfl .run).1⟩

end Build

end Rebuild
