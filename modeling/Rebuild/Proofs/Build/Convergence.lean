import Rebuild.Proofs.Build.Diligent
import Rebuild.Proofs.Scan.Again
import Rebuild.Proofs.Schedule.Supply

/-!
# A build that succeeds leaves nothing to do

After a build that succeeds, with commands that keep to their outputs, the same manifest is read
again and the same targets are scanned, with what the log says then. The scan succeeds, finds no
output stale, and there is nothing to schedule. Only files that nothing makes may be missing as they
were before: those which the build did not need, since they are order-only inputs of edges whose
outputs could be used without them.
-/

namespace Rebuild.Build

open Relation (ReflTransGen)
open Scan (Accessible Renewal Renewed Scanned Sources)
open Schedule (Complete Event Lacking)

variable {ω : Type} {set : Settings ω} {b b' b₁ : Build ω} {underway : ω → Multiset EdgeId}
  {events : List Event} {src src' : Sources} {found : Scan} {targets : List NodeId}
  {g : Graph} {e : EdgeId} {n : NodeId} {s : Schedule}

/-- In a build that has done all, every command that was started has finished. -/
theorem Prepared.finished_of_started (h : Prepared set underway src found targets b)
    (hleads : Leads set b events b₁) (hcomplete : Complete found targets events s)
    (he : .started e ∈ events) : .finished e ∈ events := by
  have htaken := (Schedule.startedEdges_sublist events).subset (Schedule.mem_startedEdges.mpr he)
  exact (hcomplete.run e htaken ((h.flow hleads).ledger.commands e he)).2.1

/-- What is read is what a state of a build leaves behind. -/
structure Reads (set : Settings ω) (b : Build ω) (src : Sources) : Prop where
  file : ∀ n < set.graph.nodes.size,
    src.files.stat (set.graph.node n).path = fileTime set b.kept.place n
  entry : ∀ path, src.log.find? path = b.kept.log.find? path

/-- After a build that succeeds one reads what its loop left: what is printed last changes no
file. -/
theorem Prepared.reads_of_run (h : Prepared set underway src found targets b)
    (htidy : Tidy set b) (hrun : run set b = .ok () b') {log : BuildLog}
    (hlog : ∀ path, log.find? path = b'.kept.log.find? path) :
    ∃ events b₁, Leads set b events b₁ ∧ Complete found targets events b'.schedule ∧
      Reads set b₁ ⟨set.host.files b'.kept.place, log⟩ := by
  obtain ⟨events, b₁, hleads, hcomplete, hsame, hplace⟩ := h.succeeded hrun
  refine ⟨events, b₁, hleads, hcomplete, fun n hn => ?_, fun path => hsame ▸ hlog path⟩
  rcases hplace with hplace | ⟨bytes, hplace⟩
  · rw [hplace]
    rfl
  · rw [hplace]
    exact htidy.placid.printOut bytes b₁.kept.place n hn

section Left

variable (h : Prepared set underway src found targets b) (htidy : Tidy set b)
  (hleads : Leads set b events b₁) (hsrc' : Reads set b₁ src')
include h htidy hleads hsrc'

/-- Files that could be looked at before a build can be looked at after it. -/
theorem Prepared.accessible (hsrc : Reads set b src) (hcomplete : Complete found targets events s) :
    Accessible found.graph src.files src'.files := by
  rw [← h.graph]
  intro n hn mtime hstat
  rw [hsrc'.file n hn]
  by_cases hmade : ∃ id, (found.graph.node n).producer = some id ∧ .started id ∈ events
  · obtain ⟨id, hid, hstarted⟩ := hmade
    obtain ⟨made, hfile, -⟩ := h.made htidy hleads (h.finished_of_started hleads hcomplete hstarted)
      ((h.sound.linked.producer_iff n id).mp hid)
    exact ⟨some made, hfile⟩
  · have hfile := h.fileTime_untouched htidy hleads (h.graph ▸ hn) fun id hid hstarted =>
      hmade ⟨id, hid, hstarted⟩
    exact ⟨mtime, by rw [hfile, ← hsrc.file n hn, hstat]⟩

/-- A command that has finished has made its outputs anew. -/
theorem Prepared.renewed_of_finished
    (hrestat : ∀ e < found.graph.edges.size, found.graph.edgeFlag e "restat" = false)
    (hfinished : .finished e ∈ events) : Renewed src src' found e := by
  have hlinked := h.sound.linked
  have hledger := (h.flow hleads).ledger
  have hstarted := hledger.mem_started_of_stopped hfinished rfl
  obtain ⟨hdone, hstale⟩ := h.stale_of_started hleads hstarted
  have hfile : ∀ n < found.graph.nodes.size,
      src'.files.stat (found.graph.node n).path = fileTime set b₁.kept.place n :=
    h.graph ▸ hsrc'.file
  refine .made (hledger.commands e hstarted)
    (fun out hmem => ((h.sound.settled e hdone).dirty out hmem).trans hstale) fun out hmem => ?_
  have hprod := (hlinked.producer_iff out e).mpr hmem
  obtain ⟨made, hmade, htime, hnewest⟩ := h.made htidy hleads hfinished hmem
  obtain ⟨entry, hentry, hhash, hmtime⟩ := h.recorded hleads hfinished (.refl set b₁) hmem
  refine ⟨made, (hfile out (Graph.lt_of_producer hprod)).trans hmade,
    ⟨entry, (hsrc'.entry _).trans hentry, hhash, ?_⟩, fun i hi m hm time hold => ?_⟩
  · rw [hmtime, recordedMtime, hrestat e (hlinked.edge_lt_of_out hprod), if_neg (by simp), htime]
    rfl
  · refine hnewest i hi m hm time ?_
    rw [← hfile m (hlinked.lt_of_madeFrom hm (hlinked.lt_of_in hi)), hold]

/-- Where no command has finished everything is as it was, and was not stale. -/
theorem Prepared.renewed_of_not_finished (hsrc : Reads set b src) (hg : g.Linked)
    (hscan : Scanned src g targets found) (hcomplete : Complete found targets events s)
    (he : found.graph.Reached targets e) (hfinished : .finished e ∉ events) :
    Renewed src src' found e := by
  have hlinked := h.sound.linked
  have hsize : ∀ {n}, n ∈ (found.graph.edge e).outs → n < found.graph.nodes.size := fun hn =>
    Graph.lt_of_producer ((hlinked.producer_iff _ e).mpr hn)
  have hnot : ∀ out ∈ (found.graph.edge e).outs, ∀ id,
      (found.graph.node out).producer = some id → .started id ∉ events := by
    intro out hmem id hid hstarted
    obtain rfl := hlinked.out_unique hmem ((hlinked.producer_iff out id).mp hid)
    exact hfinished (h.finished_of_started hleads hcomplete hstarted)
  refine .kept (fun out hmem => ?_) (fun out hmem => ?_) ?_
  · have hfile := h.fileTime_untouched htidy hleads (hsize hmem) (hnot out hmem)
    have hlt := hsize hmem
    rw [← h.graph] at hlt ⊢
    rw [hsrc'.file out hlt, hsrc.file out hlt, hfile]
  · rw [hsrc'.entry, hsrc.entry]
    exact (h.untouched hleads (.refl set b₁) (hsize hmem) (hnot out hmem)).2
  · by_contra hstale
    push Not at hstale
    obtain ⟨hcommand, out, hmem, hdirty⟩ := hstale
    rw [ne_eq, Bool.not_eq_true] at hcommand
    have hneeded := Schedule.needed_of_dirty hg hscan (hscan.done_of_reached hg he) he hcommand
      hmem hdirty
    exact hfinished
      (hcomplete.run e ((hcomplete.taken e).2.mpr ⟨hneeded, out, hmem, hdirty⟩) hcommand).2.1

/-- What a build that has done all leaves to the next scan. -/
theorem Prepared.renewal (hsrc : Reads set b src) (hg : g.Linked)
    (hscan : Scanned src g targets found) (hcomplete : Complete found targets events s)
    (hrestat : ∀ e < found.graph.edges.size, found.graph.edgeFlag e "restat" = false)
    (hsupplied : ∀ e, found.graph.Reached targets e → ∀ n ∈ (found.graph.edge e).nonOrderOnlyIns,
      (found.graph.node n).producer = none → ¬(found.survey.node n).dirty) :
    Renewal src src' found targets := by
  refine ⟨fun n hn hleaf => ?_, fun e he => ?_, hsupplied⟩
  · have hfile := h.fileTime_untouched htidy hleads hn fun id hid => by rw [hleaf] at hid; cases hid
    rw [← h.graph] at hn ⊢
    rw [hsrc'.file n hn, hsrc.file n hn, hfile]
  · by_cases hfinished : .finished e ∈ events
    · exact h.renewed_of_finished htidy hleads hsrc' hrestat hfinished
    · exact h.renewed_of_not_finished htidy hleads hsrc' hsrc hg hscan hcomplete he hfinished

end Left

/-- A file that a build does not need although it is missing: nothing makes it, it is no target, and
all edges that use it have it as an order-only input, and outputs that could be used before. -/
structure Dispensable (files : FileView) (found : Scan) (targets : List NodeId) (n : NodeId) :
    Prop where
  leaf : (found.graph.node n).producer = none
  missing : files.stat (found.graph.node n).path = .ok none
  extra : n ∉ targets
  orderOnly : ∀ e, found.graph.Reached targets e → n ∈ (found.graph.edge e).ins →
    n ∉ (found.graph.edge e).nonOrderOnlyIns ∧ (found.survey.edge e).outputReady

section Next

variable {validations : List NodeId} {found' : Scan}
  (hnamed : ∀ n, (found.graph.node n).fromDepfile = false) (hg : g.Linked)
  (hscan : Scanned src g (targets ++ validations) found)
  (hschedule : Program.schedule found targets validations = .ok s)
include hnamed hg hscan hschedule

/-- A build that can be scheduled has what makes something stale. -/
theorem supplied_of_schedule (he : found.graph.Reached (targets ++ validations) e)
    (hn : n ∈ (found.graph.edge e).nonOrderOnlyIns) (hleaf : (found.graph.node n).producer = none) :
    ¬(found.survey.node n).dirty := fun hdirty =>
  (Schedule.of_lacking hg hscan hschedule he (List.mem_append_left _ hn)
    ⟨hleaf, hnamed n, hdirty⟩).2 hn

variable (hlt : ∀ n ∈ targets ++ validations, n < g.nodes.size)
  (hnext : Scanned src' g (targets ++ validations) found') (hsame : found'.graph = found.graph)
  (hrenewal : Renewal src src' found (targets ++ validations))
include hlt hnext hsame hrenewal

/-- No target is stale in the next scan. -/
theorem target_clean (hn : n ∈ targets ++ validations) : ¬(found'.survey.node n).dirty := by
  obtain ⟨hsound, hknown⟩ := hscan.sound hg
  cases hp : (found.graph.node n).producer with
  | none =>
    have hclean : ¬(found.survey.node n).dirty := fun hdirty =>
      (Schedule.schedule_supplied hsound hknown hschedule).1 n hn ⟨hp, hnamed n, hdirty⟩
    have hsize := Nat.lt_of_lt_of_le (hlt n hn) (hscan.grows hg).nodes_size
    exact (Scan.staysClean_of_leaf hg hscan hlt hnext hsame hp (hrenewal.leaf n hsize hp)
      (hknown n hn) ((hnext.sound hg).2 n hn) hclean).1
  | some e =>
    exact (hrenewal.staysClean hg hscan hlt hnext hsame ⟨n, hn, e, hp, .refl⟩
      ((hsound.linked.producer_iff n e).mp hp)).1

/-- What is stale in the next scan is a missing file that the build did not need. -/
theorem dispensable_of_dirty {m : NodeId} (hm : m ∈ targets ++ validations)
    (hn : ReflTransGen found.graph.MadeFrom m n) (hdirty : (found'.survey.node n).dirty) :
    Dispensable src'.files found (targets ++ validations) n := by
  obtain ⟨hsound, -⟩ := hscan.sound hg
  obtain ⟨hsound', hknown'⟩ := hnext.sound hg
  have hleaf : (found.graph.node n).producer = none := by
    by_contra hmade
    obtain ⟨e, hp⟩ := Option.ne_none_iff_exists'.mp hmade
    exact (hrenewal.staysClean hg hscan hlt hnext hsame (.of_madeFrom hm hn hp)
      ((hsound.linked.producer_iff n e).mp hp)).1 hdirty
  have hmissing : src'.files.stat (found.graph.node n).path = .ok none := by
    have hrules := hnext.leafRules hg hlt (hsame ▸ hleaf)
      (hsound'.orderly.known_madeFrom (hknown' m hm) (hsame ▸ hn))
    rw [← hsame]
    exact hrules.dirty.mp hdirty
  refine ⟨hleaf, hmissing, fun htarget => ?_, fun e he hin => ?_⟩
  · exact target_clean hnamed hg hscan hschedule hlt hnext hsame hrenewal htarget hdirty
  · have hknown := (hsound.settled e (hscan.done_of_reached hg he)).known n hin
    have hbefore : (found.survey.node n).dirty := by
      rw [(hscan.leafRules hg hlt hleaf hknown).dirty,
        ← hrenewal.leaf n (hsound.linked.lt_of_in hin) hleaf]
      exact hmissing
    exact (Schedule.of_lacking hg hscan hschedule he hin ⟨hleaf, hnamed n, hbefore⟩).symm

/-- All targets can be used. -/
theorem schedule_again :
    Program.schedule found' targets validations = .ok (.start found'.survey) := by
  refine Schedule.schedule_of_usable (fun n hn _ => ?_) fun n hn e hp => ?_
  · exact target_clean hnamed hg hscan hschedule hlt hnext hsame hrenewal hn
  · exact hrenewal.outputReady hg hscan hlt hnext hsame ⟨n, hn, e, hsame ▸ hp, .refl⟩

end Next

/-- In a build that succeeds, for any number of jobs and in whichever order commands end, commands
keep to their outputs; no edge of the manifest has a dependency file or restats its outputs. When
the manifest is read again as it was, the same targets are scanned successfully, with the log as it
reads then, and the same validations are met. Everything stale that the targets or validations are
made from is a missing file that the build did not need, and there is nothing to schedule. -/
theorem build_converges {host : Host ω} (hhost : host.Faithful underway) (kept : BuildLog.Kept ω)
    (hkept : underway kept.place = 0) {manifest : String}
    (hload : Manifest.load (host.files kept.place) manifest = .ok g)
    (hrestat : ∀ e < g.edges.size, g.edgeFlag e "restat" = false)
    (hdepfile : ∀ e < g.edges.size, g.edgeVar e "depfile" = "")
    (htargets : ∀ n ∈ targets, n < g.nodes.size) {validations : List NodeId}
    (hscan : Scan.all ⟨host.files kept.place, kept.log⟩ targets (.start g default) =
      .ok validations found)
    (hschedule : Program.schedule found targets validations = .ok s) (jobs : Nat) (verbose : Bool)
    (hset : set = ⟨host, found.graph, max jobs 1, verbose⟩) (hrun : run set ⟨s, kept⟩ = .ok () b)
    (htidy : Tidy set ⟨s, kept⟩) (hagain : Manifest.load (host.files b.kept.place) manifest =
      Manifest.load (host.files kept.place) manifest) {log : BuildLog}
    (hlog : ∀ path, log.find? path = b.kept.log.find? path) :
    ∃ g' found', Manifest.load (host.files b.kept.place) manifest = .ok g' ∧
      Scan.all ⟨host.files b.kept.place, log⟩ targets (.start g' default) =
        .ok validations found' ∧
      (∀ m ∈ targets ++ validations, ∀ n, ReflTransGen found'.graph.MadeFrom m n →
        (found'.survey.node n).dirty →
          Dispensable (host.files b.kept.place) found (targets ++ validations) n) ∧
      Program.schedule found' targets validations = .ok (.start found'.survey) := by
  have hdeclared := Manifest.load_declared hload
  have hg := hdeclared.toLinked
  obtain ⟨-, -, hlt, hgraph, -⟩ := Scan.all_again ⟨host.files kept.place, kept.log⟩ hg hdepfile
    (fun n _ mtime hstat => ⟨mtime, hstat⟩) htargets hscan
  subst hgraph
  have hscanned : Scanned _ found.graph (targets ++ validations) found := .all .start hscan
  obtain ⟨hsound, hknown⟩ := hscanned.sound hg
  have hprepared := prepared hhost hg hscanned (List.Subset.refl _) hschedule hkept jobs verbose
    hset
  obtain ⟨events, b₁, hleads, hcomplete, hsrc'⟩ := hprepared.reads_of_run htidy hrun hlog
  have hsrc : Reads set ⟨s, kept⟩ ⟨host.files kept.place, kept.log⟩ := by
    subst hset
    exact ⟨fun _ _ => rfl, fun _ => rfl⟩
  rw [show set.host = host by rw [hset]] at hsrc'
  -- the next scan goes the same way, and finds what the build has left
  obtain ⟨found', hscan', -, -, hsame⟩ :=
    Scan.all_again ⟨host.files b.kept.place, log⟩ hg hdepfile
      (hprepared.accessible htidy hleads hsrc' hsrc hcomplete) htargets hscan
  have hnext : Scanned _ found.graph (targets ++ validations) found' := .all .start hscan'
  have hall : ∀ n ∈ targets ++ validations, n < found.graph.nodes.size := fun n hn =>
    (List.mem_append.mp hn).elim (htargets n) (hlt n)
  have hrenewal := hprepared.renewal htidy hleads hsrc' hsrc hg hscanned hcomplete hrestat
    fun e he n => supplied_of_schedule hdeclared.named hg hscanned hschedule he
  refine ⟨found.graph, found', hagain.trans hload, hscan', fun m hm n hn => ?_, ?_⟩
  · exact dispensable_of_dirty hdeclared.named hg hscanned hschedule hall hnext hsame hrenewal hm
      (hsame ▸ hn)
  · exact schedule_again hdeclared.named hg hscanned hschedule hall hnext hsame hrenewal

/-! ## A header that is gone -/

/-- Two object files, one of which has a header as an order-only input. -/
def spareManifest : String :=
  "rule cc\n  command = cc\nbuild a.o: cc a.c || gone.h\nbuild b.o: cc b.c\n"

/-- The header does not exist, and neither does the second object file. -/
def spareFiles : FileView where
  stat path := .ok (if path = "a.c" then some 1 else if path = "a.o" then some 2
    else if path = "b.c" then some 3 else none)
  read path := if path = "build.ninja" then .ok (Utf8.encode spareManifest.toList)
    else .error .missing

/-- The graph of that manifest. The object files are its nodes 0 and 3, the header is node 2. -/
def spareGraph : Graph := (Manifest.load spareFiles "build.ninja").toOption.getD default

/-- The first object file is known to be made by its command. -/
def spareLog : BuildLog :=
  { BuildLog.inMemory with
    entries := BuildLog.inMemory.entries.bind "a.o" ⟨0, 0, 2, CommandHash.ofCommand "cc"⟩ }

/-- Commands write after all that exists. -/
def spareHost : Host Bench := .diligent spareGraph spareFiles 9

/-- What a scan of both object files finds out. -/
def spareScan (bench : Bench) (log : BuildLog) : Scan :=
  match Scan.all ⟨spareHost.files bench, log⟩ [0, 3] (.start spareGraph default) with
  | .ok _ found | .error _ found => found

/-- What is known before the build. -/
def spareFound : Scan := spareScan ⟨[], []⟩ spareLog

/-- The schedule of a build of both. -/
def spareSchedule : Schedule :=
  match Program.schedule spareFound [0, 3] [] with
  | .ok s => s
  | .error _ => .start spareFound.survey

/-- Commands run one at a time. -/
def spareSet : Settings Bench := ⟨spareHost, spareFound.graph, max 1 1, false⟩

/-- The state in which the build ends. -/
def spareBuilt : Build Bench := final (run spareSet ⟨spareSchedule, spareLog, ⟨[], []⟩⟩)

/-- What is known after the build. -/
def spareAgain : Scan := spareScan spareBuilt.kept.place spareBuilt.kept.log

theorem spare_loaded :
    Manifest.load (spareHost.files ⟨[], []⟩) "build.ninja" = .ok spareGraph ∧
    (spareGraph.nodes.size = 5 ∧ spareGraph.edges.size = 2) ∧
    (spareGraph.edgeFlag 0 "restat" = false ∧ spareGraph.edgeVar 0 "depfile" = "") ∧
    spareGraph.edgeFlag 1 "restat" = false ∧ spareGraph.edgeVar 1 "depfile" = "" := by cbv

/-- No edge has a dependency file or restats its outputs. -/
theorem spare_plain : ∀ e < spareGraph.edges.size,
    spareGraph.edgeFlag e "restat" = false ∧ spareGraph.edgeVar e "depfile" = "" := by
  obtain ⟨-, ⟨-, hsize⟩, hfirst, hsecond⟩ := spare_loaded
  intro e he
  obtain rfl | rfl : e = 0 ∨ e = 1 := by omega
  · exact hfirst
  · exact hsecond

theorem spare_scanned : Scan.all ⟨spareHost.files ⟨[], []⟩, spareLog⟩ [0, 3]
      (.start spareGraph default) = .ok [] spareFound ∧ spareFound.graph = spareGraph ∧
    Program.schedule spareFound [0, 3] [] = .ok spareSchedule := by cbv

/-- The header is still an input of the first edge, and still missing. -/
theorem spare_built : run spareSet ⟨spareSchedule, spareLog, ⟨[], []⟩⟩ = .ok () spareBuilt ∧
    Manifest.load (spareHost.files spareBuilt.kept.place) "build.ninja" = .ok spareGraph ∧
    Scan.all ⟨spareHost.files spareBuilt.kept.place, spareBuilt.kept.log⟩ [0, 3]
      (.start spareGraph default) = .ok [] spareAgain ∧
    (spareAgain.graph.node 0).producer = some 0 ∧ (spareAgain.graph.edge 0).ins = [1, 2] ∧
    (spareAgain.survey.node 2).dirty := by cbv

theorem spare_tidy : Tidy spareSet ⟨spareSchedule, spareLog, ⟨[], []⟩⟩ := by
  obtain ⟨-, hgraph, hschedule⟩ := spare_scanned
  refine diligent_tidy rfl hgraph (Manifest.load_linked spare_loaded.1) (fun n _ old hold => ?_)
    (by rw [(Schedule.schedule_idle hschedule).running])
  have hcases : old = 1 ∨ old = 2 ∨ old = 3 := by
    simp only [spareFiles, Except.ok.injEq] at hold
    split_ifs at hold <;> simp_all
  rcases hcases with rfl | rfl | rfl <;> decide

/-- The header is as stale as before. -/
theorem build_converges_not_clean :
    (Manifest.load (spareHost.files ⟨[], []⟩) "build.ninja" = .ok spareGraph ∧
      ∀ e < spareGraph.edges.size,
        spareGraph.edgeFlag e "restat" = false ∧ spareGraph.edgeVar e "depfile" = "") ∧
    (Scan.all ⟨spareHost.files ⟨[], []⟩, spareLog⟩ [0, 3] (.start spareGraph default) =
        .ok [] spareFound ∧
      Program.schedule spareFound [0, 3] [] = .ok spareSchedule) ∧
    (Tidy spareSet ⟨spareSchedule, spareLog, ⟨[], []⟩⟩ ∧
      run spareSet ⟨spareSchedule, spareLog, ⟨[], []⟩⟩ = .ok () spareBuilt) ∧
    Manifest.load (spareHost.files spareBuilt.kept.place) "build.ninja" = .ok spareGraph ∧
    ∃ found', Scan.all ⟨spareHost.files spareBuilt.kept.place, spareBuilt.kept.log⟩ [0, 3]
        (.start spareGraph default) = .ok [] found' ∧
      ¬∀ m ∈ [0, 3], ∀ n, ReflTransGen found'.graph.MadeFrom m n →
        ¬(found'.survey.node n).dirty := by
  obtain ⟨hscan, -, hschedule⟩ := spare_scanned
  obtain ⟨hrun, hload, hagain, hmade, hins, hstale⟩ := spare_built
  refine ⟨⟨spare_loaded.1, spare_plain⟩, ⟨hscan, hschedule⟩, ⟨spare_tidy, hrun⟩, hload, spareAgain,
    hagain, fun hclean => ?_⟩
  exact hclean 0 (by simp) 2 (.single ⟨0, hmade, by simp [hins]⟩) hstale

/-- Both object files are made, and nothing is left to do. -/
theorem build_converges_spare :
    ∃ found', Scan.all ⟨spareHost.files spareBuilt.kept.place, spareBuilt.kept.log⟩ [0, 3]
        (.start spareGraph default) = .ok [] found' ∧
      (∀ n ∈ [0, 3], ¬(found'.survey.node n).dirty) ∧
      Program.schedule found' [0, 3] [] = .ok (.start found'.survey) := by
  obtain ⟨hscan, -, hschedule⟩ := spare_scanned
  obtain ⟨hrun, hload, -⟩ := spare_built
  obtain ⟨hfirst, ⟨hsize, -⟩, -⟩ := spare_loaded
  obtain ⟨g', found', hload', hagain, hstale, hnext⟩ :=
    build_converges (Host.diligent_faithful spareGraph spareFiles 9) ⟨spareLog, ⟨[], []⟩⟩ rfl
      hfirst (fun e he => (spare_plain e he).1) (fun e he => (spare_plain e he).2)
      (by simp [hsize]) hscan hschedule 1 false rfl hrun spare_tidy (hload.trans hfirst.symm)
      fun _ => rfl
  obtain rfl := Except.ok.inj (hload.symm.trans hload')
  exact ⟨found', hagain, fun n hn hdirty => (hstale n hn n .refl hdirty).extra hn, hnext⟩

end Rebuild.Build
