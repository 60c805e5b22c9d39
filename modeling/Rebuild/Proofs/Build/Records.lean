import Rebuild.Proofs.Build.Course
import Rebuild.Proofs.Schedule.Grounded

/-!
# What a build records

A turn of a build changes what is known about files, and what the log says, only where a command
finishes, and then only for the outputs of its edge: they are looked at again, and an entry is
recorded for each. So along a build the outputs of an edge whose command has not finished are known
and logged as they were, and those of an edge whose command has finished as they were recorded then.
-/

namespace Rebuild

namespace Schedule

/-- The files that an event makes. -/
def Event.outs (g : Graph) : Event → List NodeId
  | .finished id => (g.edge id).outs
  | .passed _ | .started _ | .failed _ => []

theorem Ripple.nodes {g : Graph} {s t : Schedule} (h : Ripple g s t) :
    t.survey.nodes = s.survey.nodes := by
  induction h with
  | refl => rfl
  | conclude _ _ _ ih => exact ih
  | enqueue _ _ _ ih => rw [survey_enqueue, ih]

/-- Finishing an edge changes nothing that is known about files. -/
theorem nodes_finish (g : Graph) (id : EdgeId) (s : Schedule) :
    (s.finish g id).survey.nodes = s.survey.nodes := by
  rw [finish]
  cases g.edges.size with
  | zero => rfl
  | succ depth => exact (finishWithin_ripple (g := g) depth id s).nodes

end Schedule

namespace Build

open Sequence
open Schedule (Event)

variable {ω : Type} {set : Settings ω} {g : Graph} {b b' b'' : Build ω} {ids : List NodeId}
  {events : List Event} {event : Event}

/-! ## Frames -/

/-- Nothing is found out about files, and nothing recorded, but for some outputs. -/
structure Confined (g : Graph) (ids : List NodeId) (b b' : Build ω) : Prop where
  node : ∀ n ∉ ids, b'.schedule.survey.node n = b.schedule.survey.node n
  entry : ∀ path ∉ g.paths ids, b'.kept.log.find? path = b.kept.log.find? path

namespace Confined

theorem refl (g : Graph) (ids : List NodeId) (b : Build ω) : Confined g ids b b :=
  ⟨fun _ _ => rfl, fun _ _ => rfl⟩

theorem trans (h : Confined g ids b b') (h' : Confined g ids b' b'') : Confined g ids b b'' :=
  ⟨fun n hn => (h'.node n hn).trans (h.node n hn),
    fun path hpath => (h'.entry path hpath).trans (h.entry path hpath)⟩

theorem mono (h : Confined g ids b b') {more : List NodeId} (hmore : ids ⊆ more) :
    Confined g more b b' where
  node n hn := h.node n fun hmem => hn (hmore hmem)
  entry path hpath := h.entry path fun hmem => hpath (List.map_subset _ hmore hmem)

/-- Neither the survey of files nor the entries of the log change. -/
theorem of_eq (hnodes : b'.schedule.survey.nodes = b.schedule.survey.nodes)
    (hentries : b'.kept.log.entries = b.kept.log.entries) : Confined g ids b b' :=
  ⟨fun n _ => congrArg (fun nodes => Table.get nodes n) hnodes,
    fun path _ => congrArg (fun entries => entries.find? path) hentries⟩

end Confined

/-! ## Recording -/

/-- The entry that is recorded for an output. -/
def entryFor (g : Graph) (survey : Survey) (report : JobReport) (out : NodeId) : LogEntry :=
  ⟨report.started.toLog, report.finished.toLog,
    ((recordedMtime g survey report.edge out).map Timestamp.toLog).getD 0,
    CommandHash.ofCommand (g.command report.edge)⟩

/-- An entry is bound in the log, and the schedule stays as it is. -/
private theorem withKept_record (path : String) (entry : LogEntry) :
    Keeps (fun b b' : Build ω => b'.schedule = b.schedule ∧
      b'.kept.log.entries = b.kept.log.entries.bind path entry)
      (withKept (BuildLog.record set.host.logStore path entry)) := by
  intro b
  have hentries := BuildLog.record_entries set.host.logStore path entry b.kept
  unfold withKept
  cases hrecord : BuildLog.record set.host.logStore path entry b.kept with
  | ok _ kept =>
    rw [hrecord] at hentries
    exact ⟨rfl, hentries⟩
  | error e kept =>
    rw [hrecord] at hentries
    exact ⟨rfl, hentries⟩

/-- Outputs are looked at again. -/
private theorem restatOutputs_confined (outs : List NodeId) :
    Keeps (Confined g outs) (restatOutputs set outs) := by
  induction outs with
  | nil => exact .pure (.refl g _) _
  | cons out outs ih =>
    have hrest : Keeps (Confined g (out :: outs)) (restatOutputs set outs) :=
      ih.mono fun _ _ h => h.mono (List.subset_cons_self _ _)
    refine .bind (fun _ _ _ => .trans) (.get (.refl g _)) fun b => ?_
    dsimp only
    split
    · exact .bind (fun _ _ _ => .trans) (.throw (.refl g _) _) fun _ => hrest
    · refine .bind (fun _ _ _ => .trans) (.modify fun b => ⟨fun n hn => ?_, fun _ _ => rfl⟩)
        fun _ => hrest
      refine (Survey.node_modifyNode ..).trans (if_neg ?_)
      rintro rfl
      exact hn List.mem_cons_self

/-- What is known about an output that was looked at again. -/
private theorem restatOutputs_ok {outs : List NodeId} (h : restatOutputs set outs b = .ok () b') :
    b'.kept = b.kept ∧ ∀ n ∈ outs, ∃ mtime,
      (set.host.files b.kept.place).stat (set.graph.node n).path = .ok mtime ∧
      b'.schedule.survey.node n =
        { (b.schedule.survey.node n).withStat mtime with dirty := false } := by
  induction outs generalizing b with
  | nil =>
    obtain ⟨-, rfl⟩ := pure_eq_ok.mp h
    exact ⟨rfl, by simp⟩
  | cons out outs ih =>
    rw [restatOutputs, get_bind] at h
    dsimp only at h
    cases hstat : (set.host.files b.kept.place).stat (set.graph.node out).path with
    | error fault =>
      rw [hstat] at h
      cases h
    | ok mtime =>
      rw [hstat] at h
      obtain ⟨_, b₁, hmodify, hrest⟩ := bind_eq_ok.mp h
      obtain rfl : _ = b₁ := (EStateM.Result.ok.inj hmodify).2
      obtain ⟨hkept, hnodes⟩ := ih hrest
      have hframe := (restatOutputs_confined (g := set.graph) outs).ok hrest
      have hnode := Survey.node_modifyNode b.schedule.survey out
      refine ⟨hkept, fun n hn => ?_⟩
      by_cases hmem : n ∈ outs
      · obtain ⟨time, htime, heq⟩ := hnodes n hmem
        refine ⟨time, htime, heq.trans ?_⟩
        by_cases hout : out = n
        · subst hout
          exact congrArg (fun m : NodeState => { m.withStat time with dirty := false })
            ((hnode out _).trans (if_pos rfl))
        · exact congrArg (fun m : NodeState => { m.withStat time with dirty := false })
            ((hnode n _).trans (if_neg hout))
      · obtain rfl := (List.mem_cons.mp hn).resolve_right hmem
        exact ⟨mtime, hstat, (hframe.node n hmem).trans ((hnode n _).trans (if_pos rfl))⟩

/-- Entries are recorded for outputs. -/
private theorem recordOutputs_confined (report : JobReport) (outs : List NodeId) :
    Keeps (fun b b' => Confined set.graph outs b b' ∧ b'.schedule = b.schedule)
      (recordOutputs set report outs) := by
  have hrefl : ∀ (outs : List NodeId) (b : Build ω),
      Confined set.graph outs b b ∧ b.schedule = b.schedule := fun outs b => ⟨.refl _ outs b, rfl⟩
  have htrans : ∀ (outs : List NodeId) (b b' b'' : Build ω),
      Confined set.graph outs b b' ∧ b'.schedule = b.schedule →
      Confined set.graph outs b' b'' ∧ b''.schedule = b'.schedule →
      Confined set.graph outs b b'' ∧ b''.schedule = b.schedule :=
    fun _ _ _ _ h h' => ⟨h.1.trans h'.1, h'.2.trans h.2⟩
  induction outs with
  | nil => exact .pure (hrefl []) _
  | cons out outs ih =>
    refine .bind (htrans _) (.get (hrefl _)) fun b₀ => ?_
    dsimp only
    refine .bind (htrans _) ((withKept_record _ _).mono ?_) fun _ => ih.mono fun _ _ h =>
      ⟨h.1.mono (List.subset_cons_self _ _), h.2⟩
    rintro b b' ⟨hschedule, hentries⟩
    refine ⟨⟨fun n _ => by rw [hschedule], fun path hpath => ?_⟩, hschedule⟩
    rw [BuildLog.find?, hentries, Bindings.find?_bind, if_neg, ← BuildLog.find?]
    exact fun heq => hpath (heq ▸ List.mem_cons_self)

/-- What the log says of an output that was recorded. -/
private theorem recordOutputs_ok {report : JobReport} {outs : List NodeId}
    (hpaths : ∀ m ∈ outs, ∀ n ∈ outs, (set.graph.node m).path = (set.graph.node n).path → m = n)
    (h : recordOutputs set report outs b = .ok () b') : ∀ n ∈ outs,
    b'.kept.log.find? (set.graph.node n).path =
      some (entryFor set.graph b.schedule.survey report n) := by
  induction outs generalizing b with
  | nil => simp
  | cons out outs ih =>
    rw [recordOutputs, get_bind] at h
    obtain ⟨_, b₁, hrecord, hrest⟩ := bind_eq_ok.mp h
    obtain ⟨hschedule, hentries⟩ := Keeps.ok (withKept_record _ _) hrecord
    have htail := ih (fun m hm n hn => hpaths m (List.mem_cons_of_mem _ hm) n
      (List.mem_cons_of_mem _ hn)) hrest
    have hframe := ((recordOutputs_confined report outs).ok hrest).1
    intro n hn
    by_cases hmem : n ∈ outs
    · rw [htail n hmem, hschedule]
    · obtain rfl := (List.mem_cons.mp hn).resolve_right hmem
      rw [hframe.entry, BuildLog.find?, hentries, Bindings.find?_bind, if_pos rfl]
      · rfl
      · intro hpath
        obtain ⟨m, hm, heq⟩ := List.mem_map.mp hpath
        exact hmem (hpaths m (List.mem_cons_of_mem _ hm) n hn heq ▸ hm)

/-! ## Reports -/

/-- What the report of a command that succeeded adds: its outputs are looked at in a place, and an
entry is recorded for each. -/
structure Recorded (set : Settings ω) (report : JobReport) (place : ω) (b b' : Build ω) :
    Prop where
  out : ∀ n ∈ (set.graph.edge report.edge).outs, ∃ mtime,
    (set.host.files place).stat (set.graph.node n).path = .ok mtime ∧
    b'.schedule.survey.node n = { (b.schedule.survey.node n).withStat mtime with dirty := false }
  entry : ∀ n ∈ (set.graph.edge report.edge).outs, b'.kept.log.find? (set.graph.node n).path =
    some (entryFor set.graph b'.schedule.survey report n)

/-- Taking in a report touches only what its event makes. -/
theorem receive_confined (report : JobReport) :
    Keeps (Confined set.graph ((eventOf report).outs set.graph)) (receive set report) := by
  have htrans : ∀ b b' b'' : Build ω, Confined set.graph ((eventOf report).outs set.graph) b b' →
      Confined set.graph ((eventOf report).outs set.graph) b' b'' →
      Confined set.graph ((eventOf report).outs set.graph) b b'' := fun _ _ _ => .trans
  unfold receive
  dsimp only
  refine .bind htrans (.modify fun b => .of_eq ?_ rfl) fun _ => ?_
  · show (b.schedule.stopped set.graph report.edge).survey.nodes = b.schedule.survey.nodes
    rw [Schedule.stopped_frame]
  split
  · next output houtcome =>
    have houts : (eventOf report).outs set.graph = (set.graph.edge report.edge).outs := by
      rw [eventOf, houtcome]
      rfl
    rw [houts] at htrans ⊢
    refine .bind htrans (.modify fun b => .of_eq rfl rfl) fun _ => ?_
    refine .bind htrans (restatOutputs_confined _) fun _ => ?_
    refine .bind htrans ((recordOutputs_confined report _).mono fun _ _ h => h.1) fun _ => ?_
    exact .modify fun b => .of_eq (Schedule.nodes_finish _ _ _) rfl
  · exact .bind htrans (.modify fun b => .of_eq rfl rfl) fun _ => .modify fun b => .of_eq rfl rfl
  · exact .modify fun b => .of_eq rfl rfl

/-- Outputs of one edge with one path are the same. -/
private theorem eq_of_path {g : Graph} (hg : g.Linked) {id : EdgeId} :
    ∀ m ∈ (g.edge id).outs, ∀ n ∈ (g.edge id).outs,
      (g.node m).path = (g.node n).path → m = n :=
  fun m hm n hn => hg.paths_inj m n (Graph.lt_of_producer ((hg.producer_iff m id).mpr hm))
    (Graph.lt_of_producer ((hg.producer_iff n id).mpr hn))

theorem receive_recorded (hg : set.graph.Linked) {report : JobReport} {output : Bytes}
    (houtcome : report.outcome = .ended true output) (h : receive set report b = .ok () b') :
    Recorded set report (set.host.printOut output b.kept.place) b b' := by
  unfold receive at h
  obtain ⟨_, b₁, hstop, h⟩ := bind_eq_ok.mp h
  rw [houtcome] at h
  obtain ⟨_, b₂, hprint, h⟩ := bind_eq_ok.mp h
  obtain ⟨_, b₃, hrestat, h⟩ := bind_eq_ok.mp h
  obtain ⟨_, b₄, hrecord, hfinish⟩ := bind_eq_ok.mp h
  obtain rfl : _ = b₁ := (EStateM.Result.ok.inj hstop).2
  obtain rfl : _ = b₂ := (EStateM.Result.ok.inj hprint).2
  obtain rfl : _ = b' := (EStateM.Result.ok.inj hfinish).2
  obtain ⟨hkept, hout⟩ := restatOutputs_ok hrestat
  obtain ⟨-, hschedule⟩ := (recordOutputs_confined report _).ok hrecord
  have hnode : ∀ n, (b₄.schedule.finish set.graph report.edge).survey.node n =
      b₃.schedule.survey.node n := fun n => by
    rw [← hschedule]
    exact congrArg (fun nodes => Table.get nodes n) (Schedule.nodes_finish _ _ _)
  have hstopped : (b.schedule.stopped set.graph report.edge).survey = b.schedule.survey := by
    rw [Schedule.stopped_frame]
  refine ⟨fun n hn => ?_, fun n hn => ?_⟩
  · obtain ⟨mtime, hstat, heq⟩ := hout n hn
    refine ⟨mtime, hstat, (hnode n).trans (heq.trans ?_)⟩
    exact congrArg (fun survey : Survey => { (survey.node n).withStat mtime with dirty := false })
      hstopped
  · refine (recordOutputs_ok (eq_of_path hg) hrecord n hn).trans ?_
    show some (entryFor set.graph b₃.schedule.survey report n) =
      some (entryFor set.graph (b₄.schedule.finish set.graph report.edge).survey report n)
    simp only [entryFor, recordedMtime, hnode]

/-! ## Turns -/

/-- A turn touches only what its event makes. -/
theorem Advance.confined (h : Advance set b event b') :
    Confined set.graph (event.outs set.graph) b b' := by
  cases h with
  | @passed id _ hturn htaken =>
    obtain ⟨_, s', _, _, _, htakes, -, hschedule⟩ := takes_of_again hturn
    refine .of_eq ?_ (by rw [(turn_inv hturn).2])
    rw [hschedule, Schedule.nodes_finish, htakes.rest]
  | @started id b₁ _ hturn hlaunch =>
    obtain ⟨s', _, _, htakes, -, hschedule⟩ := takes_of_start hturn
    obtain ⟨place, hlaunch', -⟩ := launch_eq_ok set id b₁
    rw [hlaunch', EStateM.Result.ok.injEq] at hlaunch
    obtain ⟨-, rfl⟩ := hlaunch
    refine .of_eq ?_ (by rw [(turn_inv hturn).2])
    rw [hschedule, htakes.rest]
  | @stopped report b₁ b₂ _ hturn hawait hreceive =>
    obtain ⟨hwaits, -⟩ := waits_of_rest hturn (.inl rfl)
    rw [await_eq_ok, EStateM.Result.ok.injEq] at hawait
    obtain ⟨-, rfl⟩ := hawait
    have hbefore : Confined set.graph ((eventOf report).outs set.graph) b
        { b₁ with kept := { b₁.kept with place := (set.host.await b₁.kept.place).2 } } :=
      .of_eq (by rw [hwaits.survey]) (by rw [(turn_inv hturn).2])
    exact hbefore.trans ((receive_confined report).ok hreceive)

/-- A turn in which a command finishes records its outputs. -/
theorem Advance.recorded (hg : set.graph.Linked) {id : EdgeId}
    (h : Advance set b (.finished id) b') : ∃ report output w,
      set.host.await b.kept.place = (some report, w) ∧ report.edge = id ∧
      report.outcome = .ended true output ∧
      Recorded set report (set.host.printOut output w) b b' := by
  generalize hevent : Event.finished id = event at h
  cases h with
  | passed => cases hevent
  | started => cases hevent
  | @stopped report b₁ b₂ _ hturn hawait hreceive =>
    obtain ⟨hwaits, -⟩ := waits_of_rest hturn (.inl rfl)
    rw [await_eq_ok, EStateM.Result.ok.injEq] at hawait
    obtain ⟨hreport, rfl⟩ := hawait
    rw [(turn_inv hturn).2] at hreport hreceive
    unfold eventOf at hevent
    split at hevent
    · next output houtcome =>
      cases hevent
      have hrecorded := receive_recorded hg houtcome hreceive
      refine ⟨report, output, _, Prod.ext hreport rfl, rfl, houtcome, fun n hn => ?_,
        hrecorded.entry⟩
      obtain ⟨mtime, hstat, heq⟩ := hrecorded.out n hn
      refine ⟨mtime, hstat, heq.trans ?_⟩
      rw [← hwaits.survey]
    · cases hevent
    · cases hevent

/-! ## Along the loop -/

/-- A build touches only what its events make. -/
theorem Leads.confined (h : Leads set b events b') :
    Confined set.graph (events.flatMap (Event.outs set.graph)) b b' := by
  induction h with
  | refl => exact .refl _ _ _
  | step _ hadvance ih =>
    rw [List.flatMap_append, List.flatMap_singleton]
    exact (ih.mono (List.subset_append_left _ _)).trans
      (hadvance.confined.mono (List.subset_append_right _ _))

theorem mem_flatMap_outs {g : Graph} (hg : g.Linked) {n : NodeId} :
    n ∈ events.flatMap (Event.outs g) ↔ ∃ id, (g.node n).producer = some id ∧
      .finished id ∈ events := by
  simp only [List.mem_flatMap, hg.producer_iff]
  constructor
  · rintro ⟨event, hevent, hn⟩
    cases event with
    | finished id => exact ⟨id, hn, hevent⟩
    | passed | started | failed => cases hn
  · rintro ⟨id, hn, hevent⟩
    exact ⟨_, hevent, hn⟩

/-- Files that nothing makes, or that are made by a command that has not finished, are known and
logged as they were. -/
theorem Leads.unchanged (hg : set.graph.Linked) (h : Leads set b events b') {n : NodeId}
    (hn : n < set.graph.nodes.size)
    (hnot : ∀ id, (set.graph.node n).producer = some id → .finished id ∉ events) :
    b'.schedule.survey.node n = b.schedule.survey.node n ∧
      b'.kept.log.find? (set.graph.node n).path = b.kept.log.find? (set.graph.node n).path := by
  have hfresh : n ∉ events.flatMap (Event.outs set.graph) := fun hmem => by
    obtain ⟨id, hid, hevent⟩ := (mem_flatMap_outs hg).mp hmem
    exact hnot id hid hevent
  refine ⟨h.confined.node n hfresh, h.confined.entry _ fun hpath => hfresh ?_⟩
  obtain ⟨m, hm, heq⟩ := List.mem_map.mp hpath
  obtain ⟨id, hid, -⟩ := (mem_flatMap_outs hg).mp hm
  exact hg.paths_inj m n (Graph.lt_of_producer hid) hn heq ▸ hm

/-- Any event of a build is that of a turn. -/
theorem Leads.split (h : Leads set b events b') (hevent : event ∈ events) :
    ∃ before after b₁ b₂, events = before ++ event :: after ∧ Leads set b before b₁ ∧
      Advance set b₁ event b₂ ∧ Leads set b₂ after b' := by
  induction h with
  | refl => cases hevent
  | @step events b₁ last b₂ hleads hadvance ih =>
    rcases List.mem_append.mp hevent with hmem | hmem
    · obtain ⟨before, after, c₁, c₂, rfl, hbefore, hstep, hafter⟩ := ih hmem
      exact ⟨before, after ++ [last], c₁, c₂, by simp, hbefore, hstep, hafter.step hadvance⟩
    · obtain rfl := List.mem_singleton.mp hmem
      exact ⟨events, [], b₁, b₂, rfl, hleads, hadvance, .refl⟩

/-- On the way from one state to another the command of an edge finishes: its report comes, and its
outputs are looked at and recorded; and they are known and logged so in the end. -/
inductive Finishes (set : Settings ω) (b : Build ω) (events : List Event) (b' : Build ω)
    (id : EdgeId) : Prop
  | intro {before after b₁ b₂ report output w} (split : events = before ++ .finished id :: after)
    (leads : Leads set b before b₁) (advance : Advance set b₁ (.finished id) b₂)
    (rest : Leads set b₂ after b') (await : set.host.await b₁.kept.place = (some report, w))
    (edge : report.edge = id) (outcome : report.outcome = .ended true output)
    (recorded : Recorded set report (set.host.printOut output w) b₁ b₂)
    (stays : ∀ n ∈ (set.graph.edge id).outs,
      b'.schedule.survey.node n = b₂.schedule.survey.node n ∧
      b'.kept.log.find? (set.graph.node n).path = b₂.kept.log.find? (set.graph.node n).path)

/-- A command that finishes only once. -/
theorem Leads.finishes (hg : set.graph.Linked) (h : Leads set b events b') {id : EdgeId}
    (hid : .finished id ∈ events) (honce : events.count (.finished id) ≤ 1) :
    Finishes set b events b' id := by
  obtain ⟨before, after, b₁, b₂, rfl, hbefore, hadvance, hafter⟩ := h.split hid
  obtain ⟨report, output, w, hawait, hedge, houtcome, hrecorded⟩ := hadvance.recorded hg
  refine .intro rfl hbefore hadvance hafter hawait hedge houtcome hrecorded fun n hn => ?_
  have hprod := (hg.producer_iff n id).mpr hn
  refine hafter.unchanged hg (Graph.lt_of_producer hprod) fun d hd hlater => ?_
  obtain rfl := Option.some.inj (hprod.symm.trans hd)
  have hpos := List.count_pos_iff.mpr hlater
  rw [List.count_append, List.count_cons_self] at honce
  omega

end Build

end Rebuild
