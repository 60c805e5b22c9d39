import Rebuild.Proofs.Build.Ends
import Rebuild.Proofs.Build.Steady

/-!
# Waiting for commands

The commands underway are those that were started and that no report has come for. When a build is
over, none is left. Only a report of a command that succeeded can keep a build from getting there:
if one of its outputs cannot be looked at, or the build log cannot be written, the build breaks off,
and does not wait for the commands that are underway besides.
-/

namespace Rebuild.Build

open Sequence
open Schedule (Event startedEdges stoppedEdges)

variable {ω : Type} {set : Settings ω} {b b' b₁ b₂ : Build ω} {underway : ω → Multiset EdgeId}
  {events : List Event} {report : JobReport} {e : Error}

/-! ## Reports that cannot be taken in -/

/-- Why something cannot be noted about files: one of them cannot be looked at, or the build log
cannot be opened or written. -/
inductive Unnoted (paths : List String) : Error → Prop
  | unseen {path fault} : path ∈ paths → Unnoted paths (.cannotStat path fault)
  | unopened {path fault} : Unnoted paths (.cannotOpenLog path fault)
  | unwritten {path fault} : Unnoted paths (.cannotWriteLog path fault)

theorem Unnoted.mono {paths more : List String} (h : Unnoted paths e) (hmore : paths ⊆ more) :
    Unnoted more e := by
  cases h with
  | unseen hpath => exact .unseen (hmore hpath)
  | unopened => exact .unopened
  | unwritten => exact .unwritten

private theorem appendBytes_failsWith (store : LogStore ω) (file : LogFile) (handle : LogHandle)
    (bytes : Bytes) : FailsWith (Unnoted []) (BuildLog.appendBytes store file handle bytes) := by
  intro k e k' h
  unfold BuildLog.appendBytes at h
  split at h
  · cases h
  · cases h
    exact .unwritten

private theorem openLog_failsWith (store : LogStore ω) (file : LogFile) :
    FailsWith (Unnoted []) (BuildLog.openFile store file) := by
  refine .bind (fun k e k' h => ?_) fun (handle, size) => ?_
  · split at h
    · cases h
    · cases h
      exact .unopened
  · have hnote : FailsWith (Unnoted []) (do
        modify fun k : BuildLog.Kept ω =>
          { k with log.file := some { file with handle := some handle } }
        return handle) := .bind (.modify _) fun _ => .pure _
    dsimp only
    split
    · exact .bind (appendBytes_failsWith store file handle _) fun _ => hnote
    · exact hnote

private theorem record_failsWith (store : LogStore ω) (path : String) (entry : LogEntry) :
    FailsWith (Unnoted []) (BuildLog.record store path entry) := by
  refine .bind (.modify _) fun _ => .bind .get fun k => ?_
  split
  · exact .pure _
  · refine .bind ?_ fun handle => appendBytes_failsWith store _ handle _
    unfold BuildLog.openOnce
    split
    · exact .pure _
    · exact openLog_failsWith store _

private theorem restatOutputs_failsWith (outs : List NodeId) :
    FailsWith (Unnoted (set.graph.paths outs)) (restatOutputs set outs) := by
  induction outs with
  | nil => exact .pure _
  | cons out outs ih =>
    have hrest : FailsWith (Unnoted (set.graph.paths (out :: outs))) (restatOutputs set outs) :=
      ih.mono fun e he => he.mono (List.subset_cons_self _ _)
    refine .bind .get fun b => ?_
    dsimp only
    split
    · exact .bind (.throw (.unseen List.mem_cons_self)) fun _ => hrest
    · exact .bind (.modify _) fun _ => hrest

private theorem recordOutputs_failsWith (report : JobReport) (outs : List NodeId) :
    FailsWith (Unnoted []) (recordOutputs set report outs) := by
  induction outs with
  | nil => exact .pure _
  | cons out outs ih =>
    refine .bind .get fun b => .bind (fun c e c' h => ?_) fun _ => ih
    unfold withKept at h
    split at h
    · cases h
    · next hrecord =>
      cases h
      exact record_failsWith _ _ _ _ _ _ hrecord

/-- The report of a command that failed, or that could not be run, is always taken in. That of a
command that succeeded is unless something cannot be noted about its outputs. -/
theorem receive_failsWith (report : JobReport) :
    FailsWith (fun e => (∃ output, report.outcome = .ended true output) ∧
      Unnoted (set.graph.paths (set.graph.edge report.edge).outs) e) (receive set report) := by
  unfold receive
  refine .bind (.modify _) fun _ => ?_
  split
  · next output houtcome =>
    refine FailsWith.mono (P := Unnoted (set.graph.paths (set.graph.edge report.edge).outs)) ?_
      fun e he => ⟨⟨output, houtcome⟩, he⟩
    refine .bind (.modify _) fun _ => .bind (restatOutputs_failsWith _) fun _ => ?_
    refine .bind ?_ fun _ => .modify _
    exact (recordOutputs_failsWith report _).mono fun e he => he.mono (List.nil_subset _)
  · exact .bind (.modify _) fun _ => .modify _
  · exact .modify _

/-! ## The end of the loop -/

/-- A build waits for a command to stop, and its report cannot be taken in. -/
inductive Breaks (set : Settings ω) (b : Build ω) (report : JobReport) (e : Error)
    (b' : Build ω) : Prop
  | intro {c₁ c₂} (waits : turn set b = .ok .wait c₁)
    (reported : await set c₁ = .ok (some report) c₂) (refused : receive set report c₂ = .error e b')

theorem Breaks.halts (h : Breaks set b report e b') : Halts set b (.error e b') := by
  cases h with
  | intro hturn hawait hreceive => exact .aborted hturn hawait hreceive

/-- The command whose report it is does not count as underway any more. -/
theorem Breaks.underway_eq (hhost : set.host.Faithful underway)
    (hsame : underway b.kept.place = b.schedule.running) (h : Breaks set b report e b') :
    underway b.kept.place = report.edge ::ₘ underway b'.kept.place := by
  cases h with
  | @intro c₁ c₂ hturn hawait hreceive =>
    obtain ⟨hwaits, hmem, hunderway⟩ := await_some_inv hhost hsame hturn hawait
    have hquiet := receive_eq hhost report c₂
    rw [hreceive] at hquiet
    rw [hquiet.underway, hunderway, ← Multiset.coe_erase, Multiset.cons_erase hmem, hsame,
      hwaits.running]

theorem Halts.deterministic {result result' : EStateM.Result Error (Build ω) Unit}
    (h : Halts set b result) (h' : Halts set b result') : result = result' := by
  cases h with
  | complete hover =>
    cases h' with
    | complete hover' =>
      cases hover.symm.trans hover'
      rfl
    | aborted hwait' => cases hover.symm.trans hwait'
  | aborted hwait hreport herror =>
    cases h' with
    | complete hover' => cases hwait.symm.trans hover'
    | aborted hwait' hreport' herror' =>
      cases hwait.symm.trans hwait'
      cases hreport.symm.trans hreport'
      cases herror.symm.trans herror'
      rfl

/-- A build breaks off although other commands are underway. -/
def LeavesBehind (set : Settings ω) (underway : ω → Multiset EdgeId) (b : Build ω) : Prop :=
  ∃ events b₁ report e b', Leads set b events b₁ ∧ Breaks set b₁ report e b' ∧
    underway b'.kept.place ≠ 0

namespace Prepared

variable {src : Scan.Sources} {found : Scan} {targets : List NodeId}

/-- For every command that was started a report has come, unless it is underway. -/
theorem started_eq (h : Prepared set underway src found targets b)
    (hleads : Leads set b events b₁) :
    (startedEdges events : Multiset EdgeId) = stoppedEdges events + underway b₁.kept.place := by
  obtain ⟨⟨hflow, -⟩, hsame⟩ := h.along hleads
  ext id
  rw [hsame, Multiset.coe_add, Multiset.coe_count, Multiset.coe_count, List.count_append,
    hflow.ledger.running, Nat.add_comm]

/-- Where a report cannot be taken in, that is the end of the build. -/
theorem run_of_breaks (h : Prepared set underway src found targets b)
    (hleads : Leads set b events b₁) (hbreaks : Breaks set b₁ report e b') :
    run set b = .error e b' := by
  obtain ⟨later, b₂, hlater, hhalts⟩ := h.halts hleads
  have hstays : b₂ = b₁ := by
    cases later with
    | nil => exact hlater.eq_of_nil
    | cons event later =>
      obtain ⟨_, hadvance, -⟩ := hlater.head
      exact absurd hadvance hbreaks.halts.not_advance
  subst hstays
  have hready : b.schedule.ready ≠ [] := fun hnil => by
    -- the build would be over before anything happens
    have hidle := h.ready.planned.toIdle
    have hover := Halts.complete (turn_of_empty h.jobs hnil hidle.running hidle.failed)
    cases events with
    | nil =>
      obtain rfl := hleads.eq_of_nil
      cases hover.deterministic hbreaks.halts
    | cons event events =>
      obtain ⟨_, hadvance, -⟩ := hleads.head
      exact hover.not_advance hadvance
  rw [run_of_turns hready, bind_of_error _ (hhalts.deterministic hbreaks.halts)]

/-- A build goes on until no command is underway, unless it breaks off. -/
theorem ends (h : Prepared set underway src found targets b) :
    ∃ events b₁, Leads set b events b₁ ∧
      (underway b₁.kept.place = 0 ∧ underway (final (run set b)).kept.place = 0 ∨
        ∃ report e b', Breaks set b₁ report e b') := by
  by_cases hnil : b.schedule.ready = []
  · have hnone : underway b.kept.place = 0 := by
      rw [h.same, h.ready.planned.toIdle.running]
      rfl
    refine ⟨[], b, .refl, .inl ⟨hnone, ?_⟩⟩
    rw [run_of_empty hnil]
    exact (h.host.printOut _ _).trans hnone
  · obtain ⟨events, b₁, hleads, hhalts⟩ := h.halts .refl
    refine ⟨events, b₁, hleads, ?_⟩
    rw [final_run hnil]
    generalize turns set (2 * set.graph.edges.size + 1) b = result at hhalts
    cases hhalts with
    | @complete b₂ hturn =>
      obtain ⟨hwaits, hover⟩ := waits_of_rest hturn (.inr rfl)
      have hnone : underway b₁.kept.place = 0 := by
        rw [(h.along hleads).2, ← hwaits.running, hover.mp rfl]
        rfl
      refine .inl ⟨hnone, ?_⟩
      rw [final, (turn_inv hturn).2, hnone]
    | aborted hturn hawait hreceive => exact .inr ⟨_, _, _, .intro hturn hawait hreceive⟩

end Prepared

/-- A build of targets that were scanned, for any number of jobs, any pools, and in whichever order
commands end and how, waits for the commands that it started, and leaves some behind exactly if it
breaks off while others are underway. Its loop goes on until for every command that was started a
report has come, unless the report of a command that succeeded cannot be taken in, because an output
cannot be looked at or the build log cannot be written. That is then the end, and the commands that
are underway besides are not waited for. -/
theorem left_behind_iff {host : Host ω} (hhost : host.Faithful underway) {src : Scan.Sources}
    {g : Graph} (hg : g.Linked) {scanned targets validations : List NodeId} {found : Scan}
    (hscan : Scan.Scanned src g scanned found) (hsub : targets ++ validations ⊆ scanned)
    {s : Schedule} (hschedule : Program.schedule found targets validations = .ok s)
    {kept : BuildLog.Kept ω} (hkept : underway kept.place = 0) (jobs : Nat) (verbose : Bool)
    (hset : set = ⟨host, found.graph, max jobs 1, verbose⟩) :
    (underway (final (run set ⟨s, kept⟩)).kept.place ≠ 0 ↔ LeavesBehind set underway ⟨s, kept⟩) ∧
    ∃ events b, Leads set ⟨s, kept⟩ events b ∧
      ((startedEdges events : Multiset EdgeId) = stoppedEdges events ∧
        underway (final (run set ⟨s, kept⟩)).kept.place = 0 ∨
      ∃ report e b', Breaks set b report e b' ∧ run set ⟨s, kept⟩ = .error e b' ∧
        (∃ output, report.outcome = .ended true output) ∧
        Unnoted (found.graph.paths (found.graph.edge report.edge).outs) e ∧
        (startedEdges events : Multiset EdgeId) =
          stoppedEdges events + report.edge ::ₘ underway b'.kept.place) := by
  have hprepared := prepared hhost hg hscan hsub hschedule hkept jobs verbose hset
  obtain ⟨events, b, hleads, hends⟩ := hprepared.ends
  refine ⟨⟨fun hleft => ?_, ?_⟩, events, b, hleads, ?_⟩
  · obtain ⟨-, hnone⟩ | ⟨report, e, b', hbreaks⟩ := hends
    · exact absurd hnone hleft
    · rw [hprepared.run_of_breaks hleads hbreaks] at hleft
      exact ⟨events, b, report, e, b', hleads, hbreaks, hleft⟩
  · rintro ⟨events, b, report, e, b', hleads, hbreaks, hleft⟩
    rwa [hprepared.run_of_breaks hleads hbreaks]
  · have hstarted := hprepared.started_eq hleads
    obtain ⟨hnone, hover⟩ | ⟨report, e, b', hbreaks⟩ := hends
    · exact .inl ⟨by rw [hstarted, hnone, add_zero], hover⟩
    · have hunderway := hbreaks.underway_eq hprepared.host (hprepared.along hleads).2
      refine .inr ⟨report, e, b', hbreaks, hprepared.run_of_breaks hleads hbreaks, ?_⟩
      rw [hunderway] at hstarted
      obtain ⟨-, -, hreceive⟩ := hbreaks
      obtain ⟨hsuccess, hunnoted⟩ := receive_failsWith report _ _ _ hreceive
      exact ⟨hsuccess, hprepared.graph ▸ hunnoted, hstarted⟩

/-! ## A build that breaks off -/

/-- The twins, made at the same time. -/
def together : Graph := { twins with pools := #[⟨"wide", 2⟩] }

/-- What a scan finds out about them. -/
def togetherScan : Scan :=
  match Scan.all ⟨noFiles, .inMemory⟩ [2] (.start together default) with
  | .ok _ found | .error _ found => found

theorem together_scanned :
    Scan.all ⟨noFiles, .inMemory⟩ [2] (.start together default) = .ok [] togetherScan := by cbv

/-- Their schedule. -/
def togetherSchedule : Schedule :=
  match Program.schedule togetherScan [2] [] with
  | .ok s => s
  | .error _ => .start togetherScan.survey

theorem together_scheduled : Program.schedule togetherScan [2] [] = .ok togetherSchedule := by cbv

/-- Nothing can be looked at. -/
def sealedFiles : FileView where
  stat _ := .error (.other "permission denied")
  read _ := .error (.other "permission denied")

/-- The turns in which both of the twins are started, and then one is waited for. -/
theorem together_turns : ∃ s₁ s₂ s₃, togetherSchedule.turn togetherScan.graph 2 = (.start 0, s₁) ∧
    s₁.turn togetherScan.graph 2 = (.start 1, s₂) ∧ s₂.turn togetherScan.graph 2 = (.wait, s₃) :=
  ⟨_, _, _, Prod.ext (by cbv) rfl, Prod.ext (by cbv) rfl, Prod.ext (by cbv) rfl⟩

/-- Both of the twins are started. The first succeeds, its output cannot be looked at, and the
second is left behind. -/
theorem left_behind_iff_together :
    let set : Settings (List EdgeId) := ⟨.steady sealedFiles, togetherScan.graph, max 2 1, false⟩
    (final (run set ⟨togetherSchedule, .inMemory, []⟩)).kept.place ≠ [] := by
  intro set
  obtain ⟨s₁, s₂, s₃, hfirst, hsecond, hwait⟩ := together_turns
  have hturn : ∀ (s : Schedule) (queue : List EdgeId), turn set ⟨s, .inMemory, queue⟩ =
      .ok (s.turn togetherScan.graph 2).1 ⟨(s.turn togetherScan.graph 2).2, .inMemory, queue⟩ :=
    fun s queue => turn_eq_ok set ⟨s, .inMemory, queue⟩
  have hstart : ∀ {s s' : Schedule} {id : EdgeId} (queue : List EdgeId),
      s.turn togetherScan.graph 2 = (.start id, s') →
      Advance set ⟨s, .inMemory, queue⟩ (.started id) ⟨s', .inMemory, queue ++ [id]⟩ := by
    intro s s' id queue hs
    have hstarted := hturn s queue
    rw [hs] at hstarted
    exact .started hstarted rfl
  have hleads := (Leads.refl.step (hstart [] hfirst)).step (hstart [0] hsecond)
  have hbreaks : Breaks set ⟨s₂, .inMemory, [0, 1]⟩ ⟨0, 0, 0, .ended true []⟩
      (.cannotStat "left" (.other "permission denied"))
      ⟨s₃.stopped togetherScan.graph 0, .inMemory, [1]⟩ := by
    have hwaits := hturn s₂ [0, 1]
    rw [hwait] at hwaits
    refine .intro hwaits rfl ?_
    have houts : (set.graph.edge 0).outs = [0] := by cbv
    have hpath : (set.graph.node 0).path = "left" := by cbv
    unfold receive
    dsimp only
    rw [houts, ← hpath]
    rfl
  intro hnone
  refine (left_behind_iff (Host.steady_faithful sealedFiles) (by decide)
    (.all .start together_scanned) (by simp) together_scheduled rfl 2 false rfl).1.mpr
    ⟨_, _, _, _, _, hleads, hbreaks, by simp⟩ ?_
  rw [hnone]
  rfl

end Rebuild.Build
