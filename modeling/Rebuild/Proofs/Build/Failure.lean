import Rebuild.Proofs.Build.Aftermath
import Rebuild.Proofs.Build.Steady

/-!
# Failures

When a command has failed, nothing is started any more, and what depends on its edge stays as it
was: it cannot be used, it was not started and will not be, and the log says nothing new about it.
Commands that were underway are waited for and recorded, and then the build fails and tells how many
commands did.
-/

namespace Rebuild.Build

open Relation (ReflTransGen TransGen)
open Schedule (Event failures startedEdges takenEdges)

variable {ω : Type} {set : Settings ω} {b b' b₁ : Build ω} {underway : ω → Multiset EdgeId}
  {events : List Event}

/-- Every report of a command that stops during a build can be taken in. -/
def Receives (set : Settings ω) (b : Build ω) : Prop :=
  ∀ {events b₁ b₂ b₃ report}, Leads set b events b₁ → turn set b₁ = .ok .wait b₂ →
    await set b₂ = .ok (some report) b₃ → ∃ b₄, receive set report b₃ = .ok () b₄

/-- After a failure nothing is taken from the queue. -/
theorem Leads.takenEdges_eq_nil (hhost : set.host.Faithful underway)
    (hsame : underway b.kept.place = b.schedule.running) (hfailed : b.schedule.failed ≠ 0)
    (h : Leads set b events b') : takenEdges events = [] :=
  (h.invariant hhost (P := fun events s => s.failed ≠ 0 ∧ takenEdges events = []) ⟨hfailed, rfl⟩
    (fun h hmoves => Schedule.takenEdges_moves h.1 h.2 hmoves) hsame).1.2

section Contained

variable {src : Scan.Sources} {found : Scan} {targets : List NodeId} {e d : EdgeId}

/-- An edge that depends on one whose command has failed cannot be used, its command does not run
and has not finished, and was not even started unless the edge is the one that failed. -/
theorem Prepared.contained (h : Prepared set underway src found targets b)
    (hleads : Leads set b events b₁) (he : .failed e ∈ events)
    (hd : ReflTransGen found.graph.Feeds e d) :
    (b₁.schedule.survey.edge d).outputReady = false ∧ d ∉ b₁.schedule.running ∧
      .finished d ∉ events ∧ (d ≠ e → .started d ∉ events) := by
  obtain ⟨⟨hflow, hgrounded⟩, -⟩ := h.along hleads
  have hnot := hflow.not_ready_of_failed h.grounded he
  have hready : (b₁.schedule.survey.edge d).outputReady = false := by
    by_contra hready
    rw [Bool.not_eq_false] at hready
    rw [hgrounded.of_reflTransGen hd hready] at hnot
    cases hnot
  have hstarted : d ≠ e → .started d ∉ events := fun hne hstarted => by
    have hbetween : TransGen found.graph.Feeds e d :=
      (Relation.reflTransGen_iff_eq_or_transGen.mp hd).resolve_left hne
    exact hgrounded.not_taken hflow hbetween hnot
      ((Schedule.startedEdges_sublist events).subset (Schedule.mem_startedEdges.mpr hstarted))
  have hledger := hflow.ledger
  by_cases heq : d = e
  · subst heq
    exact ⟨hready, fun hrun => (hledger.of_running hrun).2.2 he,
      hledger.not_finished_of_failed he, hstarted⟩
  · exact ⟨hready, fun hrun => hstarted heq (hledger.of_running hrun).1,
      fun hfinished => hstarted heq (hledger.mem_started_of_stopped hfinished rfl), hstarted⟩

/-- Its outputs are logged as they were before the build. -/
theorem Prepared.unlogged (h : Prepared set underway src found targets b)
    (hleads : Leads set b events b₁) (he : .failed e ∈ events)
    (hd : ReflTransGen found.graph.Feeds e d) {out : NodeId}
    (hout : out ∈ (found.graph.edge d).outs) :
    b₁.kept.log.find? (found.graph.node out).path =
      b.kept.log.find? (found.graph.node out).path := by
  have hg : set.graph.Linked := h.graph ▸ h.sound.linked
  rw [← h.graph] at hout ⊢
  have hprod := (hg.producer_iff out d).mpr hout
  refine (hleads.unchanged hg (Graph.lt_of_producer hprod) fun id hid hfinished => ?_).2
  obtain rfl := Option.some.inj (hprod.symm.trans hid)
  exact (h.contained hleads he hd).2.2.1 hfinished

/-- This is so as well in a state that is left behind, such as the one in which the build ends. -/
theorem Prepared.contained_after (h : Prepared set underway src found targets b)
    (hleads : Leads set b events b₁) (he : .failed e ∈ events) (hremains : Remains set b₁ b')
    (hd : ReflTransGen found.graph.Feeds e d) :
    (b'.schedule.survey.edge d).outputReady = false ∧
      ∀ out ∈ (found.graph.edge d).outs, b'.kept.log.find? (found.graph.node out).path =
        b.kept.log.find? (found.graph.node out).path := by
  have hlinked := h.sound.linked
  obtain ⟨hnot, hrun, -⟩ := h.contained hleads he hd
  refine ⟨?_, fun out hout => ?_⟩
  · rw [Survey.edge, hremains.edges]
    exact hnot
  · have hprod := (hlinked.producer_iff out d).mpr hout
    rw [← h.unlogged hleads he hd hout, ← h.graph]
    refine hremains.entry out (h.graph ▸ Graph.lt_of_producer hprod) fun id hid hmade => hrun ?_
    rw [h.graph] at hmade
    obtain rfl := hlinked.out_unique hout hmade
    exact hid

/-- Nothing is started after a failure. -/
theorem Prepared.startedEdges_eq_nil (h : Prepared set underway src found targets b)
    {before after : List Event} (hleads : Leads set b (before ++ .failed e :: after) b₁) :
    startedEdges after = [] := by
  have hparts : Leads set b ((before ++ [.failed e]) ++ after) b₁ := by simpa using hleads
  obtain ⟨c, hbefore, hafter⟩ := hparts.cut
  have hfailed : c.schedule.failed ≠ 0 := by
    rw [h.failed_eq hbefore]
    exact failures_ne_zero (List.mem_append_right before (List.mem_singleton_self _))
  have hnone := hafter.takenEdges_eq_nil h.host (h.along hbefore).2 hfailed
  exact List.sublist_nil.mp (hnone ▸ Schedule.startedEdges_sublist after)

/-- The loop goes on after a failure until the build is over, which then fails. -/
theorem Prepared.fails (h : Prepared set underway src found targets b)
    (hleads : Leads set b events b₁) (he : .failed e ∈ events) (hreceives : Receives set b) :
    ∃ later b₂ b₃, Leads set b₁ later b₂ ∧ turn set b₂ = .ok .over b₃ ∧
      run set b = .error (.buildFailed (failures (events ++ later))) b₃ := by
  obtain ⟨later, b₂, hlater, hhalts⟩ := h.halts hleads
  have hall := hleads.trans hlater
  generalize hturns : turns set (2 * set.graph.edges.size + 1) b = result at hhalts
  cases hhalts with
  | @complete b₃ hturn =>
    refine ⟨later, b₂, b₃, hlater, hturn, ?_⟩
    obtain ⟨hwaits, -⟩ := waits_of_rest hturn (.inr rfl)
    have hnow : b₃.schedule.failed = failures (events ++ later) := by
      rw [← h.failed_eq hall, hwaits.failed]
    have hfailed : b₃.schedule.failed ≠ 0 := hnow ▸ failures_ne_zero (List.mem_append_left _ he)
    rw [run_of_turns (h.ready_ne_nil hleads (List.ne_nil_of_mem he)), Sequence.bind_of_ok _ hturns,
      Sequence.get_bind, ← hnow]
    exact congrFun (if_pos hfailed) b₃
  | aborted hturn hawait hreceive =>
    obtain ⟨c, hok⟩ := hreceives hall hturn hawait
    rw [hreceive] at hok
    cases hok

end Contained

/-- The command of an edge finished, and what its report made of the outputs is what the log says
about them. -/
def Logged (set : Settings ω) (b : Build ω) (events : List Event) (b' : Build ω) (id : EdgeId) :
    Prop :=
  ∃ before after b₁ b₂ report w, events = before ++ .finished id :: after ∧
    Leads set b before b₁ ∧ set.host.await b₁.kept.place = (some report, w) ∧ report.edge = id ∧
    Advance set b₁ (.finished id) b₂ ∧ ∀ out ∈ (set.graph.edge id).outs,
      b'.kept.log.find? (set.graph.node out).path =
        some (entryFor set.graph b₂.schedule.survey report out)

theorem Finishes.logged {id : EdgeId} (h : Finishes set b events b' id) :
    Logged set b events b' id := by
  obtain ⟨hsplit, hleads, hadvance, -, hawait, rfl, -, hrecorded, hstays⟩ := h
  exact ⟨_, _, _, _, _, _, hsplit, hleads, hawait, rfl, hadvance, fun out hout =>
    (hstays out hout).2.trans (hrecorded.entry out hout)⟩

/-- In a build of targets that were scanned, for any number of jobs, any pools, and in whichever
order commands end and how, a command has failed. Then no command is started any more. An edge that
depends on the one that failed, through inputs of whatever kind, is not started and cannot be used,
and the log says of its outputs what it said before the build; this is so in every state after the
failure and when the build has ended, however it ends. Every command that finished, before or after,
is recorded. If all reports can be taken in, the loop goes on until the build is over, and then the
build fails and tells how many commands did. -/
theorem failure_is_contained {host : Host ω} (hhost : host.Faithful underway) {src : Scan.Sources}
    {g : Graph} (hg : g.Linked) {scanned targets validations : List NodeId} {found : Scan}
    (hscan : Scan.Scanned src g scanned found) (hsub : targets ++ validations ⊆ scanned)
    {s : Schedule} (hschedule : Program.schedule found targets validations = .ok s)
    {kept : BuildLog.Kept ω} (hkept : underway kept.place = 0) (jobs : Nat) (verbose : Bool)
    (hset : set = ⟨host, found.graph, max jobs 1, verbose⟩)
    (hleads : Leads set ⟨s, kept⟩ events b) {e : EdgeId} (hfailed : .failed e ∈ events) :
    (∀ before after, events = before ++ .failed e :: after → startedEdges after = []) ∧
    (∀ d, ReflTransGen found.graph.Feeds e d → (d ≠ e → .started d ∉ events) ∧
      ∀ b', b' = b ∨ b' = final (run set ⟨s, kept⟩) →
        (b'.schedule.survey.edge d).outputReady = false ∧
        ∀ out ∈ (found.graph.edge d).outs, b'.kept.log.find? (found.graph.node out).path =
          kept.log.find? (found.graph.node out).path) ∧
    (∀ d, .finished d ∈ events → Logged set ⟨s, kept⟩ events b d) ∧
    (Receives set ⟨s, kept⟩ → ∃ later b₁ b₂, Leads set b later b₁ ∧ turn set b₁ = .ok .over b₂ ∧
      run set ⟨s, kept⟩ = .error (.buildFailed (failures (events ++ later))) b₂) := by
  have hprepared := prepared hhost hg hscan hsub hschedule hkept jobs verbose hset
  refine ⟨?_, fun d hd => ⟨(hprepared.contained hleads hfailed hd).2.2.2, fun b' hb' => ?_⟩,
    fun d hd => ?_, hprepared.fails hleads hfailed⟩
  · rintro before after rfl
    exact hprepared.startedEdges_eq_nil hleads
  · obtain ⟨later, b₁, hlater, hremains⟩ :=
      hprepared.aftermath hleads (List.ne_nil_of_mem hfailed) hb'
    exact hprepared.contained_after (hleads.trans hlater) (List.mem_append_left _ hfailed) hremains
      hd
  · have hledger := (hprepared.flow hleads).ledger
    exact (hleads.finishes (hprepared.graph ▸ hprepared.sound.linked) hd
      (hledger.count_finished_le d)).logged

/-! ## A build that fails -/

/-- A host where every command fails. -/
def futile : Host (List EdgeId) :=
  { Host.steady noFiles with
    await := fun queue => (queue.head?.map fun id => ⟨id, 0, 0, .ended false []⟩, queue.tail) }

theorem futile_faithful : futile.Faithful fun queue => (queue : Multiset EdgeId) where
  launch := (Host.steady_faithful noFiles).launch
  await_none queue queue' h := by
    cases queue with
    | nil => rfl
    | cons id rest => cases h
  await_some queue report queue' h := by
    cases queue with
    | nil => cases h
    | cons id rest => cases h; rfl
  printOut := (Host.steady_faithful noFiles).printOut
  printError := (Host.steady_faithful noFiles).printError
  openFile := (Host.steady_faithful noFiles).openFile
  append := (Host.steady_faithful noFiles).append

/-- Failures can always be taken in. -/
theorem futile_receives {set : Settings (List EdgeId)} (hhost : set.host = futile)
    (b : Build (List EdgeId)) : Receives set b := by
  intro _ _ b₂ b₃ report _ _ hawait
  rw [await_eq_ok, hhost, EStateM.Result.ok.injEq] at hawait
  obtain ⟨id, -, rfl⟩ := Option.map_eq_some_iff.mp hawait.1
  exact ⟨_, rfl⟩

/-- The turns in which the first of the twins is started and waited for. -/
theorem twins_turns : ∃ s₁ s₂, twinsSchedule.turn twinsScan.graph 2 = (.start 0, s₁) ∧
    s₁.turn twinsScan.graph 2 = (.wait, s₂) :=
  ⟨_, _, Prod.ext (by cbv) rfl, Prod.ext (by cbv) rfl⟩

/-- The first of the twins fails: the name for both is not made, and the build fails. -/
theorem failure_is_contained_twins :
    let set : Settings (List EdgeId) := ⟨futile, twinsScan.graph, max 2 1, false⟩
    ∃ events b, Leads set ⟨twinsSchedule, .inMemory, []⟩ events b ∧ .failed 0 ∈ events ∧
      .started 2 ∉ events ∧ (b.schedule.survey.edge 2).outputReady = false ∧
      ∃ n b', run set ⟨twinsSchedule, .inMemory, []⟩ = .error (.buildFailed n) b' := by
  intro set
  obtain ⟨s₁, s₂, hstart, hwait⟩ := twins_turns
  have hfirst : Advance set ⟨twinsSchedule, .inMemory, []⟩ (.started 0) ⟨s₁, .inMemory, [0]⟩ := by
    have hturn := turn_eq_ok set ⟨twinsSchedule, .inMemory, []⟩
    change turn set _ = .ok (twinsSchedule.turn twinsScan.graph 2).1
      ⟨(twinsSchedule.turn twinsScan.graph 2).2, .inMemory, []⟩ at hturn
    rw [hstart] at hturn
    exact .started hturn rfl
  have hsecond : Advance set ⟨s₁, .inMemory, [0]⟩ (.failed 0)
      ⟨(s₂.stopped twinsScan.graph 0).fail, .inMemory, []⟩ := by
    have hturn := turn_eq_ok set ⟨s₁, .inMemory, [0]⟩
    change turn set _ = .ok (s₁.turn twinsScan.graph 2).1
      ⟨(s₁.turn twinsScan.graph 2).2, .inMemory, [0]⟩ at hturn
    rw [hwait] at hturn
    have hawait : await set ⟨s₂, .inMemory, [0]⟩ =
        .ok (some ⟨0, 0, 0, .ended false []⟩) ⟨s₂, .inMemory, []⟩ := rfl
    exact .stopped hturn hawait rfl
  have hleads := (Leads.refl.step hfirst).step hsecond
  have hfeeds : twinsScan.graph.Feeds 0 2 := by
    have hins : (twinsScan.graph.edge 2).ins = [0, 1] := by cbv
    exact ⟨0, hins ▸ List.mem_cons_self, by cbv⟩
  obtain ⟨-, hdepends, -, hprepared.failed_eq⟩ := failure_is_contained futile_faithful (by decide)
    (.all .start twins_scanned) (by simp) twins_scheduled rfl 2 false rfl hleads
    (List.mem_append_right _ (List.mem_singleton_self _))
  obtain ⟨hnever, hnot⟩ := hdepends 2 (.single hfeeds)
  obtain ⟨_, _, b', -, -, hrun⟩ := hprepared.failed_eq (futile_receives rfl _)
  exact ⟨_, _, hleads, by simp, hnever (by decide), (hnot _ (.inl rfl)).1, _, b', hrun⟩

end Rebuild.Build
