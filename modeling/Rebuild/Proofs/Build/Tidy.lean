import Rebuild.Proofs.Build.Aftermath

/-!
# Commands that keep to their outputs

Commands that write the outputs of their edges, each time all of them, and nothing else. A file of
the graph then changes only while the command of its edge runs. So what goes into an edge stays as
it is from when the command of the edge is started, and when a command has finished its outputs are
at least as new as all that goes into them.
-/

namespace Rebuild.Build

open Relation (ReflTransGen)
open Schedule (Event)
open Sequence (Keeps)

variable {ω : Type} {set : Settings ω} {b b' b₁ b₂ : Build ω} {underway : ω → Multiset EdgeId}
  {events later : List Event}

/-! ## Taking in a report -/

/-- A relation between places that printing and writing to the log keep. -/
structure Placid (host : Host ω) (R : ω → ω → Prop) : Prop where
  refl : ∀ w, R w w
  trans : ∀ w w' w'', R w w' → R w' w'' → R w w''
  printOut : ∀ bytes w, R w (host.printOut bytes w)
  printError : ∀ bytes w, R w (host.printError bytes w)
  openFile : ∀ path replace w opened w',
    host.logStore.openFile path replace w = .ok (opened, w') → R w w'
  append : ∀ handle bytes w w', host.logStore.append handle bytes w = .ok w' → R w w'

/-- Work on a build keeps a relation between places. -/
abbrev KeepsPlace {α : Type} (R : ω → ω → Prop) (work : Building ω α) : Prop :=
  Keeps (fun b b' => R b.kept.place b'.kept.place) work

namespace Placid

variable {R : ω → ω → Prop} (h : Placid set.host R)
include h

private theorem bind {α β : Type} {first : Building ω α} {next : α → Building ω β}
    (hfirst : KeepsPlace R first) (hnext : ∀ a, KeepsPlace R (next a)) :
    KeepsPlace R (first >>= next) :=
  Keeps.bind (R := fun b b' : Build ω => R b.kept.place b'.kept.place)
    (fun _ _ _ => h.trans _ _ _) hfirst hnext

private theorem pure {α : Type} (a : α) : KeepsPlace R (pure a : Building ω α) :=
  fun _ => h.refl _

private theorem throw {α : Type} (e : Error) : KeepsPlace R (throw e : Building ω α) :=
  fun _ => h.refl _

private theorem get : KeepsPlace R (get : Building ω (Build ω)) :=
  fun _ => h.refl _

omit h in
private theorem modify {f : Build ω → Build ω} (hf : ∀ b, R b.kept.place (f b).kept.place) :
    KeepsPlace R (modify f) :=
  hf

private theorem record (path : String) (entry : LogEntry) :
    KeepsPlace R (withKept (BuildLog.record set.host.logStore path entry)) := by
  have hwriting : BuildLog.Writing set.host.logStore fun k k' => R k.place k'.place :=
    ⟨fun _ => h.refl _, fun _ _ _ => h.trans _ _ _, fun _ _ => h.refl _,
      fun _ _ _ _ _ hopen => h.openFile _ _ _ _ _ hopen,
      fun _ _ _ _ happend => h.append _ _ _ _ happend⟩
  have hrecord : Keeps (fun k k' : BuildLog.Kept ω => R k.place k'.place)
      (BuildLog.record set.host.logStore path entry) := hwriting.record fun _ => h.refl _
  intro b
  have hkept := hrecord b.kept
  unfold withKept
  cases hresult : BuildLog.record set.host.logStore path entry b.kept with
  | ok _ kept =>
    rw [hresult] at hkept
    exact hkept
  | error _ kept =>
    rw [hresult] at hkept
    exact hkept

private theorem restatOutputs (outs : List NodeId) : KeepsPlace R (restatOutputs set outs) := by
  induction outs with
  | nil => exact h.pure _
  | cons out outs ih =>
    refine h.bind h.get fun b => ?_
    dsimp only
    split
    · exact h.bind (h.throw _) fun _ => ih
    · exact h.bind (modify fun _ => h.refl _) fun _ => ih

private theorem recordOutputs (report : JobReport) (outs : List NodeId) :
    KeepsPlace R (recordOutputs set report outs) := by
  induction outs with
  | nil => exact h.pure _
  | cons out outs ih =>
    exact h.bind h.get fun _ => h.bind (h.record _ _) fun _ => ih

/-- Taking in a report does nothing else to a place than print and write to the log. -/
theorem receive (report : JobReport) : KeepsPlace R (receive set report) := by
  unfold Build.receive
  dsimp only
  refine h.bind (modify fun _ => h.refl _) fun _ => ?_
  split
  · exact h.bind (modify fun _ => h.printOut _ _) fun _ => h.bind (h.restatOutputs _) fun _ =>
      h.bind (h.recordOutputs _ _) fun _ => modify fun _ => h.refl _
  · exact h.bind (modify fun _ => h.refl _) fun _ => modify fun _ => h.printError _ _
  · exact modify fun _ => h.refl _

/-- From the report of a command on, nothing else is done in a turn. -/
theorem of_finished {report : JobReport} {id : EdgeId} {w : ω}
    (hadvance : Advance set b (.finished id) b')
    (hawait : set.host.await b.kept.place = (some report, w)) : R w b'.kept.place := by
  generalize hevent : Event.finished id = event at hadvance
  cases hadvance with
  | passed => cases hevent
  | started => cases hevent
  | @stopped report' c c' _ hturn hawait' hreceive =>
    rw [await_eq_ok, (turn_inv hturn).2, hawait, EStateM.Result.ok.injEq] at hawait'
    obtain ⟨-, rfl⟩ := hawait'
    exact (h.receive report').ok hreceive

end Placid

/-! ## Files -/

/-- How new the file of a node is in a place, if it exists. -/
def fileTime (set : Settings ω) (place : ω) (n : NodeId) : Except IoFault (Option Timestamp) :=
  (set.host.files place).stat (set.graph.node n).path

/-- The files of the graph are in one place as they are in another. -/
def Undisturbed (set : Settings ω) (w w' : ω) : Prop :=
  ∀ n < set.graph.nodes.size, fileTime set w' n = fileTime set w n

/-- Commands of a build write the outputs of their edges and nothing else. Whenever one finishes,
its outputs exist and are no older than any file of the graph was when it was started. Neither the
log nor anything printed is a file of the graph. -/
structure Tidy (set : Settings ω) (b : Build ω) : Prop where
  placid : Placid set.host (Undisturbed set)
  apart : ∀ {events b₁ event b₂}, Leads set b events b₁ → Advance set b₁ event b₂ →
    ∀ n < set.graph.nodes.size,
      (∀ id ∈ b₁.schedule.running ++ b₂.schedule.running, n ∉ (set.graph.edge id).outs) →
      fileTime set b₂.kept.place n = fileTime set b₁.kept.place n
  made : ∀ {events b₁ id b₂ between b₃ b₄}, Leads set b events b₁ →
    Advance set b₁ (.started id) b₂ → Leads set b₂ between b₃ → Advance set b₃ (.finished id) b₄ →
    ∀ out ∈ (set.graph.edge id).outs, ∃ made, fileTime set b₄.kept.place out = .ok (some made) ∧
      ∀ n < set.graph.nodes.size, ∀ old, fileTime set b₁.kept.place n = .ok (some old) → old ≤ made

namespace Tidy

variable (h : Tidy set b)
include h

/-- A file of the graph changes only while the command of its edge runs. -/
theorem fileTime_eq (hleads : Leads set b events b₁) (hlater : Leads set b₁ later b₂) {n : NodeId}
    (hn : n < set.graph.nodes.size) (hidle : ∀ more c, more <+: later → Leads set b₁ more c →
      ∀ id ∈ c.schedule.running, n ∉ (set.graph.edge id).outs) :
    fileTime set b₂.kept.place n = fileTime set b₁.kept.place n := by
  induction hlater with
  | refl => rfl
  | @step more c event c' hmore hadvance ih =>
    have hbefore := hidle more c (List.prefix_append _ _) hmore
    have hafter := hidle _ c' (List.prefix_refl _) (hmore.step hadvance)
    rw [h.apart (hleads.trans hmore) hadvance n hn fun id hid =>
      (List.mem_append.mp hid).elim (hbefore id) (hafter id)]
    exact ih fun more' d hearly => hidle more' d (hearly.trans (List.prefix_append _ _))

end Tidy

namespace Prepared

variable {src : Scan.Sources} {found : Scan} {targets : List NodeId} {e : EdgeId} {n : NodeId}
  (h : Prepared set underway src found targets b) (htidy : Tidy set b)
include h htidy

/-- A file is as before the build if the command that makes it was not started. -/
theorem fileTime_untouched (hleads : Leads set b events b₁) (hn : n < found.graph.nodes.size)
    (hnot : ∀ id, (found.graph.node n).producer = some id → .started id ∉ events) :
    fileTime set b₁.kept.place n = fileTime set b.kept.place n := by
  have hg : set.graph.Linked := h.graph ▸ h.sound.linked
  rw [← h.graph] at hn hnot
  refine htidy.fileTime_eq .refl hleads hn fun more c hearly hmore id hid hmade => ?_
  exact hnot id ((hg.producer_iff n id).mpr hmade)
    (hearly.subset ((h.flow hmore).ledger.of_running hid).1)

/-- Outputs of an edge that can be used are not written any more. -/
theorem fileTime_stays (hleads : Leads set b events b₁) (hlater : Leads set b₁ later b₂)
    (hn : n < found.graph.nodes.size) (hready : ∀ p, (found.graph.node n).producer = some p →
      (b₁.schedule.survey.edge p).outputReady) :
    fileTime set b₂.kept.place n = fileTime set b₁.kept.place n := by
  have hg : set.graph.Linked := h.graph ▸ h.sound.linked
  rw [← h.graph] at hn hready
  refine htidy.fileTime_eq hleads hlater hn fun more c _ hmore id hid hmade => ?_
  exact (h.settled hleads hmore (hready id ((hg.producer_iff n id).mpr hmade))).2 hid

omit htidy in
/-- A command is started with all its inputs. -/
theorem inputs_ready_of_started (hleads : Leads set b events b₁)
    (hadvance : Advance set b₁ (.started e) b₂) :
    b₁.schedule.survey.inputsReady found.graph e := by
  have hflow := h.flow hleads
  generalize hevent : Event.started e = event at hadvance
  cases hadvance with
  | passed => cases hevent
  | started hturn =>
    cases hevent
    obtain ⟨_, _, -, htakes, -⟩ := takes_of_start hturn
    exact hflow.tracked.queued e (hflow.ledger.of_takes (h.graph ▸ htakes)).1
  | stopped =>
    unfold eventOf at hevent
    split at hevent <;> cases hevent

/-- When a command has finished, its outputs exist, are known as they are, and are no older than any
file that goes into them. -/
theorem made (hleads : Leads set b events b₁) (he : .finished e ∈ events) {out : NodeId}
    (hout : out ∈ (found.graph.edge e).outs) : ∃ made,
    fileTime set b₁.kept.place out = .ok (some made) ∧
    (b₁.schedule.survey.node out).mtime = some made ∧
    ∀ i ∈ (found.graph.edge e).ins, ∀ m, ReflTransGen found.graph.MadeFrom i m → ∀ time,
      fileTime set b₁.kept.place m = .ok (some time) → time ≤ made := by
  have hg : set.graph.Linked := h.graph ▸ h.sound.linked
  have hprod := (hg.producer_iff out e).mpr (h.graph ▸ hout)
  have hlt := Graph.lt_of_producer hprod
  obtain @⟨before, after, c, c', report, output, w, rfl, hbefore, hadvance, hafter, hawait, hedge,
    -, hrecorded, hstays⟩ := hleads.finishes hg he ((h.flow hleads).ledger.count_finished_le e)
  have hrun := (hadvance.moves h.host (h.along hbefore).2).1.mem_running rfl
  obtain ⟨earlier, between, d, d', rfl, hearlier, hstart, hbetween⟩ :=
    hbefore.split ((h.flow hbefore).ledger.of_running hrun).1
  obtain ⟨made, hmade, hnewest⟩ :=
    htidy.made hearlier hstart hbetween hadvance out (h.graph ▸ hout)
  have hdone : fileTime set b₁.kept.place out = fileTime set c'.kept.place out := by
    refine htidy.fileTime_eq (hbefore.step hadvance) hafter hlt
      fun more x _ hmore id hid hout' => ?_
    obtain rfl := hg.out_unique (h.graph ▸ hout) hout'
    exact ((h.flow ((hbefore.step hadvance).trans hmore)).ledger.of_running hid).2.1 (by simp)
  refine ⟨made, hdone.trans hmade, ?_, fun i hi m hm time htime => ?_⟩
  · obtain ⟨mtime, hstat, hnode⟩ := hrecorded.out out (by rw [hedge, h.graph]; exact hout)
    have hsame : fileTime set c'.kept.place out = .ok mtime :=
      (htidy.placid.of_finished hadvance hawait out hlt).trans
        ((htidy.placid.printOut output w out hlt).symm.trans hstat)
    rw [hmade, Except.ok.injEq] at hsame
    rw [(hstays out (h.graph ▸ hout)).1, hnode, ← hsame]
    rfl
  · have hready := h.inputs_ready_of_started hearlier hstart
    have hlt := h.sound.linked.lt_of_madeFrom hm (h.sound.linked.lt_of_in hi)
    have hstays := h.fileTime_stays htidy hearlier
      ((((Leads.step .refl hstart).trans hbetween).step hadvance).trans hafter) hlt fun p hp =>
        (h.along hearlier).1.2.of_madeFrom hready hi hm hp
    exact hnewest m (h.graph ▸ hlt) time (hstays ▸ htime)

end Prepared

end Rebuild.Build
