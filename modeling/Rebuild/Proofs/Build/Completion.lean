import Rebuild.Proofs.Build.Ends
import Rebuild.Proofs.Build.Steady

/-!
# Completion

A build in which all commands succeed makes all that is needed, whatever the pools and in whichever
order commands end. It has enough turns for that, never waits for nothing, and is not over before
everything is done.
-/

namespace Rebuild.Build

open Schedule (Event Complete)

variable {ω : Type} {set : Settings ω} {b b' b₁ b₂ : Build ω} {underway : ω → Multiset EdgeId}
  {events : List Event}

/-- In a build that succeeds no command fails. -/
theorem Succeeds.not_failed (h : Succeeds set b) (hleads : Leads set b events b') (e : EdgeId) :
    .failed e ∉ events := by
  induction hleads with
  | refl => exact List.not_mem_nil
  | step hleads hadvance ih =>
    intro he
    rcases List.mem_append.mp he with he | he
    · exact ih he
    · have hevent := List.mem_singleton.mp he
      cases hadvance with
      | passed => cases hevent
      | started => cases hevent
      | @stopped report _ _ _ hturn hawait _ =>
        obtain ⟨⟨output, houtcome⟩, -⟩ := h hleads hturn hawait
        rw [eventOf, houtcome] at hevent
        cases hevent

/-- The loop of a build that succeeds goes on until the build is over. -/
private theorem turns_over {src : Scan.Sources} {found : Scan} {targets : List NodeId}
    (hprepared : Prepared set underway src found targets b) (hsucceeds : Succeeds set b) :
    ∃ events b₁ b₂, Leads set b events b₁ ∧ turn set b₁ = .ok .over b₂ ∧
      turns set (2 * set.graph.edges.size + 1) b = .ok () b₂ := by
  obtain ⟨events, b₁, hleads, hhalts⟩ := hprepared.halts .refl
  refine ⟨events, b₁, ?_⟩
  generalize turns set (2 * set.graph.edges.size + 1) b = result at hhalts
  cases hhalts with
  | @complete b₂ hturn => exact ⟨b₂, hleads, hturn, rfl⟩
  | aborted hturn hawait hreceive =>
    obtain ⟨-, b₄, hok⟩ := hsucceeds hleads hturn hawait
    rw [hreceive] at hok
    cases hok

/-- A build of targets that were scanned, and before which nothing was known, is complete if all
commands succeed, for any number of jobs, any pools, and in whichever order commands end. It ends
well, and when its loop is over everything needed was made and nothing is left. If it says that
there is no work to do, all targets can be used already. -/
theorem completes {host : Host ω} (hhost : host.Faithful underway) {src : Scan.Sources}
    {g : Graph} (hg : g.Linked) {scanned targets validations : List NodeId} {found : Scan}
    (hscan : Scan.Scanned src g scanned found) (hsub : targets ++ validations ⊆ scanned)
    {s : Schedule} (hschedule : Program.schedule found targets validations = .ok s) {kept : BuildLog.Kept ω}
    (hkept : underway kept.place = 0) (jobs : Nat) (verbose : Bool)
    (hset : set = ⟨host, found.graph, max jobs 1, verbose⟩) (hsucceeds : Succeeds set ⟨s, kept⟩) :
    (∃ events b₁ b₂ b, Leads set ⟨s, kept⟩ events b₁ ∧ turn set b₁ = .ok .over b₂ ∧
      run set ⟨s, kept⟩ = .ok () b ∧ b.schedule = b₂.schedule ∧
      Complete found (targets ++ validations) events b.schedule) ∧
    (s.ready = [] → ∀ n ∈ targets ++ validations, ∀ e, (found.graph.node n).producer = some e →
      (found.survey.edge e).outputReady) := by
  have hprepared := prepared hhost hg hscan hsub hschedule hkept jobs verbose hset
  have hidle := hprepared.ready.planned.toIdle
  -- without anything queued, the build is complete from the beginning
  have hempty : s.ready = [] → turn set ⟨s, kept⟩ = .ok .over ⟨s, kept⟩ ∧
      Complete found (targets ++ validations) [] s := by
    intro hnil
    have hturn := turn_of_empty (b := ⟨s, kept⟩) hprepared.jobs hnil hidle.running hidle.failed
    exact ⟨hturn, (hprepared.complete .refl (fun e => List.not_mem_nil) hturn).2⟩
  refine ⟨?_, fun hnil n hn e hp => ?_⟩
  · by_cases hnil : s.ready = []
    · obtain ⟨hturn, hcomplete⟩ := hempty hnil
      exact ⟨[], _, _, _, .refl, hturn, run_of_empty hnil, rfl, hcomplete⟩
    · obtain ⟨events, b₁, b₂, hleads, hturn, hturns⟩ := turns_over hprepared hsucceeds
      obtain ⟨hzero, hcomplete⟩ :=
        hprepared.complete hleads (hsucceeds.not_failed hleads) hturn
      refine ⟨events, b₁, b₂, b₂, hleads, hturn, ?_, rfl, hcomplete⟩
      rw [run_of_turns hnil, Sequence.bind_of_ok _ hturns, Sequence.get_bind]
      exact congrFun (if_neg (not_not.mpr hzero)) b₂
  · by_contra hnot
    have hsome := (hprepared.ready.registered e).mpr (.target hn hp hnot)
    rw [(hempty hnil).2.unregistered e] at hsome
    cases hsome

/-- Both files are made, one after the other. -/
theorem completes_twins :
    let set : Settings (List EdgeId) := ⟨.steady noFiles, twinsScan.graph, max 2 1, false⟩
    ∃ b, run set ⟨twinsSchedule, .inMemory, []⟩ = .ok () b ∧ b.schedule.ready = [] ∧
      ∀ e, b.schedule.phase e = none := by
  intro set
  have hsucceeds : Succeeds set ⟨twinsSchedule, .inMemory, []⟩ :=
    steady_succeeds rfl (fun _ => ⟨none, rfl⟩) _
  obtain ⟨⟨_, _, _, b, -, -, hrun, -, hcomplete⟩, -⟩ := completes
    (Host.steady_faithful noFiles) (by decide) (.all .start twins_scanned) (by simp) twins_scheduled
    rfl 2 false rfl hsucceeds
  exact ⟨b, hrun, hcomplete.ready, hcomplete.unregistered⟩

end Rebuild.Build
