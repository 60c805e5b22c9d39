import Rebuild.Proofs.Build.Steady
import Rebuild.Proofs.Schedule.Rest

/-!
# The order of commands

A build starts the command of an edge once, only if its outputs are stale, and only when all its
inputs can be used: nothing makes them, the scan found them up to date, or what makes them is done.
-/

namespace Rebuild.Build

open Schedule (Completed startedEdges)

variable {ω : Type} {set : Settings ω} {b : Build ω} {underway : ω → Multiset EdgeId}

/-- A build of targets that were scanned, together or one after the other, starts commands in order,
for any number of jobs, and whichever command ends next and however. No command is started twice. When one is, the
outputs of its edge were found stale, and every input, of whatever kind, can be used: nothing makes
it, or the scan found that it can be used, or its edge passed or finished, or its edge was not found
stale itself and all that goes into it can be used by now. -/
theorem starts_in_order {host : Host ω} (hhost : host.Faithful underway) {src : Scan.Sources}
    {g : Graph} (hg : g.Linked) {scanned targets validations : List NodeId} {found : Scan}
    (hscan : Scan.Scanned src g scanned found) (hsub : targets ++ validations ⊆ scanned)
    {s : Schedule} (hschedule : Program.schedule found targets validations = .ok s) {kept : BuildLog.Kept ω}
    (hkept : underway kept.place = 0) (jobs : Nat) (verbose : Bool)
    (hset : set = ⟨host, found.graph, max jobs 1, verbose⟩) {events : List Schedule.Event}
    (hleads : Leads set ⟨s, kept⟩ events b) :
    (startedEdges events).Nodup ∧
    ∀ id b₁, turn set b = .ok (.start id) b₁ →
      id ∉ startedEdges events ∧
      ((found.graph.edge id).outs ≠ [] ∧
        ∀ out ∈ (found.graph.edge id).outs, (found.survey.node out).dirty) ∧
      ∀ n ∈ (found.graph.edge id).ins, ∀ p, (found.graph.node n).producer = some p →
        (b.schedule.survey.edge p).outputReady ∧
        ((found.survey.edge p).outputReady ∨ Completed events p ∨
          (∀ out ∈ (found.graph.edge p).outs, (found.survey.node out).dirty = false) ∧
            b.schedule.survey.inputsReady found.graph p) := by
  subst hset
  obtain ⟨hsound, hknown⟩ := hscan.sound hg
  have hready := Schedule.schedule_ready hsound (fun n hn => hknown n (hsub hn)) hschedule
  have hsame := underway_eq_running hkept hready.planned.running
  obtain ⟨hflow, -⟩ := hleads.invariant hhost (P := Schedule.Flow found.graph s)
    (hready.flow hsound) (fun h hmoves => h.moves hsound.linked hmoves) hsame
  refine ⟨hflow.ledger.startedEdges_nodup, fun id b₁ hturn => ?_⟩
  obtain ⟨s', skipped, -, htakes, -, -⟩ := takes_of_start hturn
  obtain ⟨hqueued, hnew, -⟩ := hflow.ledger.of_takes htakes
  have hstale := hflow.tracked.stale id (.inr hqueued)
  have hdone : ∀ {e}, (s.phase e).isSome → found.visitOf e = .done :=
    fun he => (hready.planned.of_isSome he).2.1
  refine ⟨fun hmem => hnew ((Schedule.startedEdges_sublist events).subset hmem), ⟨?_, ?_⟩, ?_⟩
  · obtain ⟨out, hout⟩ := ((hready.registered id).mp hstale.isSome).exists_out hsound.linked
    exact List.ne_nil_of_mem hout
  · intro out hout
    rw [(hsound.settled id (hdone hstale.isSome)).dirty out hout]
    exact (hready.stale_iff hstale.isSome).mp hstale
  · intro n hn p hp
    have husable := Schedule.inputsReady_iff.mp (hflow.tracked.queued id hqueued) n hn p hp
    refine ⟨husable, (hflow.tracked.origin p husable).imp (fun h => ?_) (Or.imp_right ?_)⟩
    · rwa [hready.planned.survey] at h
    · rintro ⟨hclean, hinputs⟩
      have hsome' : (s.phase p).isSome := by rw [hclean]; rfl
      refine ⟨fun out hout => ?_, hinputs⟩
      rw [(hsound.settled p (hdone hsome')).dirty out hout, ← Bool.not_eq_true]
      exact Schedule.phaseFor_eq_clean.mp (hready.planned.phase p _ hclean).1.symm

/-- The command that is started first. -/
theorem starts_in_order_twins :
    let set : Settings (List EdgeId) := ⟨.steady noFiles, twinsScan.graph, max 2 1, false⟩
    ∃ b₁, turn set ⟨twinsSchedule, .inMemory, []⟩ = .ok (.start 0) b₁ ∧
      ∀ out ∈ (twinsScan.graph.edge 0).outs, (twinsScan.survey.node out).dirty := by
  intro set
  have hfirst : (twinsSchedule.turn twinsScan.graph 2).1 = .start 0 := by cbv
  have hturn := turn_eq_ok set ⟨twinsSchedule, .inMemory, []⟩
  change turn set _ = .ok (twinsSchedule.turn twinsScan.graph 2).1 _ at hturn
  rw [hfirst] at hturn
  have hstarts := (starts_in_order (Host.steady_faithful noFiles) (by decide)
    (.all .start twins_scanned) (by simp) twins_scheduled rfl 2 false rfl .refl).2 0 _ hturn
  exact ⟨_, hturn, hstarts.2.1.2⟩

end Rebuild.Build
