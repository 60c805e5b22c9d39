import Rebuild.Proofs.Build.Ends
import Rebuild.Proofs.Build.Records

/-!
# What a build leaves behind

The end of a build adds nothing to what is known and logged, unless a report cannot be taken in, and
then only for outputs of its command. So what was found out and recorded along the turns is what the
next build starts from: outputs of edges that never ran are as the scan found them, outputs of an
edge that can be used stay as they were when it became so, and what is recorded for the outputs of a
command goes with what is known in the end of them and of the inputs.
-/

namespace Rebuild.Build

open Schedule (Event takenEdges)

variable {ω : Type} {set : Settings ω} {b b' b₁ b₂ : Build ω} {underway : ω → Multiset EdgeId}
  {events later : List Event} {result : EStateM.Result Error (Build ω) Unit}

/-- From one state to another nothing changes but what is known and logged of outputs of commands
that run. -/
structure Remains (set : Settings ω) (b b' : Build ω) : Prop where
  edges : b'.schedule.survey.edges = b.schedule.survey.edges
  node : ∀ n, (∀ id ∈ b.schedule.running, n ∉ (set.graph.edge id).outs) →
    b'.schedule.survey.node n = b.schedule.survey.node n
  entry : ∀ n < set.graph.nodes.size, (∀ id ∈ b.schedule.running, n ∉ (set.graph.edge id).outs) →
    b'.kept.log.find? (set.graph.node n).path = b.kept.log.find? (set.graph.node n).path

theorem Remains.refl (set : Settings ω) (b : Build ω) : Remains set b b :=
  ⟨rfl, fun _ _ => rfl, fun _ _ _ => rfl⟩

/-- The end of the loop touches nothing but outputs of commands that run. -/
theorem Halts.remains (hhost : set.host.Faithful underway) (hg : set.graph.Linked)
    (hsame : underway b.kept.place = b.schedule.running) (h : Halts set b result) :
    Remains set b (final result) := by
  cases h with
  | complete hturn =>
    obtain ⟨hwaits, -⟩ := waits_of_rest hturn (.inr rfl)
    refine ⟨congrArg Survey.edges hwaits.survey, fun n _ => ?_, fun n _ _ => ?_⟩
    · exact congrArg (fun survey : Survey => survey.node n) hwaits.survey
    · rw [final, (turn_inv hturn).2]
  | @aborted report c₁ c₂ _ c hturn hawait hreceive =>
    obtain ⟨hwaits, hmem, -⟩ := await_some_inv hhost hsame hturn hawait
    have hend := receive_eq hhost report c₂
    rw [hreceive] at hend
    obtain ⟨⟨survey, hedges, hschedule⟩, -⟩ := hend
    have hbefore : Confined set.graph ((eventOf report).outs set.graph) b c₂ := by
      rw [await_eq_ok, EStateM.Result.ok.injEq] at hawait
      obtain ⟨-, rfl⟩ := hawait
      exact .of_eq (congrArg Survey.nodes hwaits.survey) (by rw [(turn_inv hturn).2])
    have hconfined := hbefore.trans ((receive_confined report).error hreceive)
    have houts : ∀ n ∈ (eventOf report).outs set.graph, n ∈ (set.graph.edge report.edge).outs := by
      intro n hn
      unfold eventOf at hn
      split at hn
      · exact hn
      · cases hn
      · cases hn
    have hrun : report.edge ∈ b.schedule.running := hwaits.running ▸ hmem
    refine ⟨?_, fun n hn => hconfined.node n fun hmade => hn _ hrun (houts n hmade),
      fun n hlt hn => hconfined.entry _ fun hpath => ?_⟩
    · rw [final, hschedule, ← hwaits.survey]
      refine hedges.trans ?_
      show (c₂.schedule.stopped set.graph report.edge).survey.edges = c₂.schedule.survey.edges
      rw [Schedule.stopped_frame]
    · obtain ⟨m, hm, heq⟩ := List.mem_map.mp hpath
      have hmade := houts m hm
      have hltm := Graph.lt_of_producer ((hg.producer_iff m _).mpr hmade)
      obtain rfl := hg.paths_inj m n hltm hlt heq
      exact hn _ hrun hmade

/-- The time that is recorded depends on what is known of the output and the inputs. -/
theorem recordedMtime_congr {g : Graph} {survey survey' : Survey} {e : EdgeId} {out : NodeId}
    (hout : survey'.node out = survey.node out)
    (hins : ∀ m ∈ (g.edge e).nonOrderOnlyIns, survey'.node m = survey.node m) :
    recordedMtime g survey' e out = recordedMtime g survey e out := by
  unfold recordedMtime
  rw [hout]
  split
  · exact List.foldl_ext _ _ _ fun _ m hm => by rw [hins m hm]
  · rfl

namespace Prepared

variable {src : Scan.Sources} {found : Scan} {targets : List NodeId} {e : EdgeId}

/-- A state of a build, also the one in which it ends, is reached by events but for outputs of
commands that run there. -/
theorem aftermath (h : Prepared set underway src found targets b) (hleads : Leads set b events b₁)
    (hevents : events ≠ []) (hb' : b' = b₁ ∨ b' = final (run set b)) :
    ∃ later b₂, Leads set b₁ later b₂ ∧ Remains set b₂ b' := by
  rcases hb' with rfl | rfl
  · exact ⟨[], b', .refl, .refl set b'⟩
  · obtain ⟨later, b₂, hlater, hhalts⟩ := h.halts hleads
    refine ⟨later, b₂, hlater, ?_⟩
    rw [final_run (h.ready_ne_nil hleads hevents)]
    exact hhalts.remains h.host (h.graph ▸ h.sound.linked) (h.along (hleads.trans hlater)).2

/-- What no command was started for is known and logged as before the build. -/
theorem untouched (h : Prepared set underway src found targets b)
    (hleads : Leads set b events b₁) (hremains : Remains set b₁ b') {n : NodeId}
    (hn : n < found.graph.nodes.size)
    (hnot : ∀ id, (found.graph.node n).producer = some id → .started id ∉ events) :
    b'.schedule.survey.node n = found.survey.node n ∧
      b'.kept.log.find? (found.graph.node n).path = b.kept.log.find? (found.graph.node n).path := by
  have hg : set.graph.Linked := h.graph ▸ h.sound.linked
  have hledger := (h.flow hleads).ledger
  rw [← h.ready.planned.survey]
  rw [← h.graph] at hn hnot ⊢
  have hidle : ∀ id ∈ b₁.schedule.running, n ∉ (set.graph.edge id).outs := fun id hid hmade =>
    hnot id ((hg.producer_iff n id).mpr hmade) (hledger.of_running hid).1
  obtain ⟨hnode, hentry⟩ := hleads.unchanged hg hn fun id hid hfinished =>
    hnot id hid (hledger.mem_started_of_stopped hfinished rfl)
  exact ⟨(hremains.node n hidle).trans hnode, (hremains.entry n hn hidle).trans hentry⟩

/-- The command of an edge that can be used does not run, and does not finish any more. -/
theorem settled (h : Prepared set underway src found targets b) (hleads : Leads set b events b₁)
    (hlater : Leads set b₁ later b₂) {p : EdgeId}
    (hp : (b₁.schedule.survey.edge p).outputReady) :
    .finished p ∉ later ∧ p ∉ b₂.schedule.running := by
  have hall := (h.flow (hleads.trans hlater)).ledger
  -- it has finished before if it was started at all
  have hfinished : .started p ∈ events ++ later → .finished p ∈ events := fun hstarted => by
    have htaken := (Schedule.startedEdges_sublist _).subset
      (Schedule.mem_startedEdges.mpr hstarted)
    have hstale := (h.flow (hleads.trans hlater)).stale_of_taken htaken
    refine ((h.flow hleads).completed_of_ready h.grounded hstale hp).resolve_left fun hpassed => ?_
    have hphony := (h.flow hleads).ledger.phony p hpassed
    rw [hall.commands p hstarted] at hphony
    cases hphony
  refine ⟨fun hmem => ?_, fun hrun => ?_⟩
  · have hstarted := hall.mem_started_of_stopped (List.mem_append_right events hmem) rfl
    have hfirst := List.count_pos_iff.mpr (hfinished hstarted)
    have hsecond := List.count_pos_iff.mpr hmem
    have hle := hall.count_finished_le p
    rw [List.count_append] at hle
    omega
  · obtain ⟨hstarted, hnot, -⟩ := hall.of_running hrun
    exact hnot (List.mem_append_left _ (hfinished hstarted))

/-- Outputs of an edge that can be used stay known and logged as they are. -/
theorem stays (h : Prepared set underway src found targets b) (hleads : Leads set b events b₁)
    (hlater : Leads set b₁ later b₂) (hremains : Remains set b₂ b') {n : NodeId}
    (hn : n < set.graph.nodes.size) (hready : ∀ p, (set.graph.node n).producer = some p →
      (b₁.schedule.survey.edge p).outputReady) :
    b'.schedule.survey.node n = b₁.schedule.survey.node n ∧
      b'.kept.log.find? (set.graph.node n).path = b₁.kept.log.find? (set.graph.node n).path := by
  have hg : set.graph.Linked := h.graph ▸ h.sound.linked
  have hidle : ∀ id ∈ b₂.schedule.running, n ∉ (set.graph.edge id).outs := fun id hid hmade =>
    (h.settled hleads hlater (hready id ((hg.producer_iff n id).mpr hmade))).2 hid
  obtain ⟨hnode, hentry⟩ := hlater.unchanged hg hn fun id hid =>
    (h.settled hleads hlater (hready id hid)).1
  exact ⟨(hremains.node n hidle).trans hnode, (hremains.entry n hn hidle).trans hentry⟩

/-- A command that runs or stops was taken with all its inputs. -/
theorem inputs_ready (h : Prepared set underway src found targets b)
    (hleads : Leads set b events b₁) (hadvance : Advance set b₁ (.finished e) b₂) :
    b₁.schedule.survey.inputsReady found.graph e := by
  obtain ⟨⟨hflow, hgrounded⟩, hsame⟩ := h.along hleads
  have hrun := (hadvance.moves h.host hsame).1.mem_running rfl
  exact hgrounded.of_taken hflow (hflow.ledger.mem_taken_of_mem_running hrun)

/-- What the log says of the outputs of an edge whose command has finished, in terms of what is
known of the output and the inputs. -/
theorem recorded (h : Prepared set underway src found targets b)
    (hleads : Leads set b events b₁) (he : .finished e ∈ events) (hremains : Remains set b₁ b')
    {out : NodeId} (hout : out ∈ (found.graph.edge e).outs) :
    ∃ entry, b'.kept.log.find? (found.graph.node out).path = some entry ∧
      entry.commandHash = CommandHash.ofCommand (found.graph.command e) ∧
      entry.mtime = ((recordedMtime found.graph b'.schedule.survey e out).map
        Timestamp.toLog).getD 0 := by
  have hg : set.graph.Linked := h.graph ▸ h.sound.linked
  have hledger := (h.flow hleads).ledger
  obtain @⟨before, after, c, c', report, output, w, -, hbefore, hadvance, hafter, -, hedge, -,
    hrecorded, hstays⟩ := hleads.finishes hg he (hledger.count_finished_le e)
  rw [← hedge] at he hadvance hstays hout ⊢
  rw [← h.graph] at hout ⊢
  -- neither the outputs nor the inputs are touched any more
  have hidle : ∀ id ∈ b₁.schedule.running, out ∉ (set.graph.edge id).outs := fun id hid hmade => by
    obtain rfl := hg.out_unique hout hmade
    exact (hledger.of_running hid).2.1 he
  have hlt := Graph.lt_of_producer ((hg.producer_iff out _).mpr hout)
  have hready := Schedule.inputsReady_iff.mp (h.inputs_ready hbefore hadvance)
  rw [← h.graph] at hready
  have hins : ∀ m ∈ (set.graph.edge report.edge).nonOrderOnlyIns,
      b'.schedule.survey.node m = c'.schedule.survey.node m := fun m hm => by
    have hmem : m ∈ (set.graph.edge report.edge).ins := List.mem_append_left _ hm
    have hnow := h.stays hbefore (.step .refl hadvance) (.refl set c') (hg.lt_of_in hmem)
      (hready m hmem)
    have hlater := h.stays hbefore (Leads.trans (.step .refl hadvance) hafter) hremains
      (hg.lt_of_in hmem) (hready m hmem)
    exact hlater.1.trans hnow.1.symm
  refine ⟨_, (hremains.entry out hlt hidle).trans ((hstays out hout).2.trans
    (hrecorded.entry out hout)), rfl, ?_⟩
  rw [entryFor, recordedMtime_congr ((hremains.node out hidle).trans (hstays out hout).1) hins]

/-- The scan found stale what is started. -/
theorem stale_of_started (h : Prepared set underway src found targets b)
    (hleads : Leads set b events b₁) (he : .started e ∈ events) :
    found.visitOf e = .done ∧ Scan.isStale src.log found.graph found.survey e := by
  have hstale := (h.flow hleads).stale_of_taken
    ((Schedule.startedEdges_sublist events).subset (Schedule.mem_startedEdges.mpr he))
  obtain ⟨-, hdone, -⟩ := h.ready.planned.of_isSome hstale.isSome
  exact ⟨hdone, (h.ready.stale_iff hstale.isSome).mp hstale⟩

/-- What the scan did not find stale, and names of groups, are known throughout a build as the scan
found them. -/
theorem known_eq (h : Prepared set underway src found targets b)
    (hleads : Leads set b events b₁) (hremains : Remains set b₁ b') {n : NodeId}
    (hn : n < found.graph.nodes.size) (hkept : ∀ p, (found.graph.node n).producer = some p →
      (found.graph.edge p).isPhony ∨ ¬(found.survey.node n).dirty) :
    b'.schedule.survey.node n = found.survey.node n := by
  have hflow := h.flow hleads
  refine (h.untouched hleads hremains hn fun p hp hstarted => ?_).1
  rcases hkept p hp with hphony | hclean
  · rw [hflow.ledger.commands p hstarted] at hphony
    cases hphony
  · obtain ⟨hdone, hstale⟩ := h.stale_of_started hleads hstarted
    have hdirty := (h.sound.settled p hdone).dirty n ((h.sound.linked.producer_iff n p).mp hp)
    exact hclean (hdirty.trans hstale)

end Prepared

end Rebuild.Build
