import Rebuild.Proofs.Build.Aftermath
import Rebuild.Proofs.Build.Completion
import Rebuild.Proofs.Build.Steady
import Rebuild.Proofs.Scan.Outcome

/-!
# Outputs that are older than inputs

A command with `restat` may leave outputs that are older than the inputs for which it ran. How new
the newest of these inputs was is recorded then, and the next scan asks whether one is newer than
that. What counts is what the build knew of the inputs. It knows files as they were when it looked
at them, but the name of a group is as new as what it stands for only if nothing of that was stale
at the scan, and what a dependency file lists for the first time it does not know at all.
-/

namespace Rebuild

namespace Build

open Scan (EdgeRules HasStaleInput Scanned Sources newestInput)
open Schedule (Event)

/-! ## The time that is recorded -/

section Times

variable {g : Graph} {survey survey' : Survey} {e : EdgeId} {out : NodeId}

private theorem foldl_latest_lt_iff (ids : List NodeId) (first : Timestamp) (word : UInt64) :
    ((ids.foldl (fun newest input => Timestamp.latest newest (survey.node input).mtime)
      (some first)).map Timestamp.toLog).getD 0 < word ↔
    first.toLog < word ∧ ∀ m ∈ ids, ∀ time, (survey.node m).mtime = some time →
      time.toLog < word := by
  induction ids generalizing first with
  | nil => simp
  | cons m ids ih =>
    rw [List.foldl_cons, List.forall_mem_cons]
    cases hm : (survey.node m).mtime with
    | none =>
      rw [Timestamp.latest, Timestamp.isLater, if_neg (by simp), ih]
      simp
    | some time =>
      simp only [Option.some.injEq, forall_eq']
      by_cases hlater : first < time
      · rw [Timestamp.latest, Timestamp.isLater, if_pos (by simpa using hlater), ih]
        have hle := Timestamp.toLog_mono (le_of_lt hlater)
        exact ⟨fun h => ⟨UInt64.lt_of_le_of_lt hle h.1, h⟩, And.right⟩
      · rw [Timestamp.latest, Timestamp.isLater, if_neg (by simpa using hlater), ih]
        have hle := Timestamp.toLog_mono (not_lt.mp hlater)
        exact ⟨fun h => ⟨h.1, UInt64.lt_of_le_of_lt hle h.1, h.2⟩, fun h => ⟨h.1, h.2.2⟩⟩

/-- With `restat` the time that is recorded for an output is earlier than another one exactly if the
output and all inputs are. -/
theorem recordedMtime_lt_iff (hrestat : g.edgeFlag e "restat") {first : Timestamp}
    (hout : (survey.node out).mtime = some first) (word : UInt64) :
    ((recordedMtime g survey e out).map Timestamp.toLog).getD 0 < word ↔
      ∀ m ∈ out :: (g.edge e).nonOrderOnlyIns, ∀ time, (survey.node m).mtime = some time →
        time.toLog < word := by
  rw [recordedMtime, if_pos hrestat, hout, foldl_latest_lt_iff, List.forall_mem_cons, hout]
  simp

end Times

variable {ω : Type} {set : Settings ω} {b b' b₁ b₂ : Build ω} {underway : ω → Multiset EdgeId}
  {events : List Event} {src src' : Sources} {found found' : Scan} {targets : List NodeId}
  {e : EdgeId}

/-- What the log says of an output of an edge with `restat` whose command has finished: it is older
than something exactly if the output and all inputs were known to be. -/
theorem Prepared.exists_entry (h : Prepared set underway src found targets b)
    (hleads : Leads set b events b₁) (he : .finished e ∈ events) (hremains : Remains set b₁ b')
    (hrestat : found.graph.edgeFlag e "restat") {out : NodeId}
    (hout : out ∈ (found.graph.edge e).outs)
    (hmade : (b'.schedule.survey.node out).mtime.isSome) :
    ∃ entry, b'.kept.log.find? (found.graph.node out).path = some entry ∧
      entry.commandHash = CommandHash.ofCommand (found.graph.command e) ∧
      ∀ time : Timestamp, entry.mtime < time.toLog ↔
        ∀ m ∈ out :: (found.graph.edge e).nonOrderOnlyIns, ∀ old,
          (b'.schedule.survey.node m).mtime = some old → old.toLog < time.toLog := by
  obtain ⟨entry, hfind, hhash, hmtime⟩ := h.recorded hleads he hremains hout
  obtain ⟨first, hfirst⟩ := Option.isSome_iff_exists.mp hmade
  refine ⟨entry, hfind, hhash, fun time => ?_⟩
  rw [hmtime, recordedMtime_lt_iff hrestat hfirst]

/-! ## The next scan -/

/-- The next scan looks only at times, if the outputs exist and the log knows that the command made
them. -/
theorem dirty_iff_of_restat {g : Graph} {survey : Survey} (hrules : EdgeRules src g survey e)
    (hcommand : (g.edge e).isPhony = false) (hrestat : g.edgeFlag e "restat")
    (hclean : ¬HasStaleInput g survey e)
    (hexist : ∀ out ∈ (g.edge e).outs, src.files.stat (g.node out).path ≠ .ok none)
    (hlog : ∀ out ∈ (g.edge e).outs, ∃ entry, src.log.find? (g.node out).path = some entry ∧
      entry.commandHash = CommandHash.ofCommand (g.command e)) {out : NodeId}
    (hout : out ∈ (g.edge e).outs) : (survey.node out).dirty ↔
      ∃ n ∈ (g.edge e).nonOrderOnlyIns, ∃ time, (survey.node n).mtime = some time ∧
        ∃ made ∈ (g.edge e).outs, ∃ entry, src.log.find? (g.node made).path = some entry ∧
          entry.mtime < time.toLog := by
  rw [hrules.command (by simp [hcommand]) out hout, or_iff_right hclean]
  constructor
  · rintro ⟨made, hmade, hnone | ⟨hno, -⟩ | ⟨-, hother⟩ | ⟨new, entry, hnew, hentry, hlt⟩⟩
    · exact absurd hnone (hexist made hmade)
    · rw [hrestat] at hno
      cases hno
    · obtain ⟨entry, hentry, hhash⟩ := hlog made hmade
      exact absurd hhash (hother entry hentry)
    · obtain ⟨n, hn, htime⟩ := Scan.exists_of_newestInput hnew
      exact ⟨n, hn, new, htime, made, hmade, entry, hentry, hlt⟩
  · rintro ⟨n, hn, time, htime, made, hmade, entry, hentry, hlt⟩
    obtain ⟨new, hnew, hle⟩ := Scan.le_newestInput hn htime
    exact ⟨made, hmade, .inr (.inr (.inr ⟨new, entry, hnew, hentry,
      UInt64.lt_of_lt_of_le hlt (Timestamp.toLog_mono hle)⟩))⟩

/-- A time that a build did not know of: it is later, as the log counts, than an output of an edge
and all its inputs were known to be. -/
def Overlooked (g : Graph) (e : EdgeId) (known : Survey) (time : Timestamp) : Prop :=
  ∃ out ∈ (g.edge e).outs, ∀ m ∈ out :: (g.edge e).nonOrderOnlyIns, ∀ old,
    (known.node m).mtime = some old → old.toLog < time.toLog

/-- A file is in the next scan as new as the build knew it last. What a command makes, or nothing,
is if its file was not changed since. The name of a group is if nothing that it stands for was stale
at the scan of the build, and it stands for the same now. -/
inductive Followed (src src' : Sources) (found found' : Scan) (known : Survey) :
    NodeId → NodeId → Prop
  | file {m n} (path : (found'.graph.node n).path = (found.graph.node m).path)
    (made : ∀ p, (found'.graph.node n).producer = some p → (found'.graph.edge p).isPhony = false)
    (same : src'.files.stat (found'.graph.node n).path = .ok (known.node m).mtime) :
    Followed src src' found found' known m n
  | group {n p} {pairs : List (NodeId × NodeId)} (made : (found.graph.node n).producer = some p)
    (phony : (found.graph.edge p).isPhony) (clean : ¬(found.survey.node n).dirty)
    (same : src'.files.stat (found.graph.node n).path = src.files.stat (found.graph.node n).path)
    (before : (found.graph.edge p).nonOrderOnlyIns = pairs.map Prod.fst)
    (after : (found'.graph.edge p).nonOrderOnlyIns = pairs.map Prod.snd)
    (inputs : ∀ q ∈ pairs, Followed src src' found found' known q.1 q.2) :
    Followed src src' found found' known n n

section Next

variable {g : Graph} {scanned scanned' : List NodeId} {known : Survey} (hg : g.Linked)
  (hscan : Scanned src g scanned found) (hlt : ∀ n ∈ scanned, n < g.nodes.size)
  (hnext : Scanned src' g scanned' found') (hlt' : ∀ n ∈ scanned', n < g.nodes.size)
include hg hscan hlt hnext hlt'

/-- The induction is on what a name stands for; files that are not stale at the scan, and names of
groups, are known throughout the build as they were found. -/
theorem Followed.mtime_eq (hknown : ∀ n < found.graph.nodes.size,
      (∀ p, (found.graph.node n).producer = some p →
        (found.graph.edge p).isPhony ∨ ¬(found.survey.node n).dirty) →
      known.node n = found.survey.node n)
    {m n : NodeId} (h : Followed src src' found found' known m n) (hm : found.Known m)
    (hn : found'.Known n) (hclean : ¬(found'.survey.node n).dirty) :
    (found'.survey.node n).mtime = (known.node m).mtime := by
  have hlinked' := (hnext.sound hg).1.linked
  induction h with
  | @file m n _ made same =>
    have htime : src'.files.stat (found'.graph.node n).path = .ok (found'.survey.node n).mtime := by
      cases hp : (found'.graph.node n).producer with
      | none => exact (hnext.leafRules hg hlt' hp hn).time
      | some p =>
        have hrules := hnext.edgeRules hg hlt' ((Scan.known_of_producer hp).mp hn)
        exact hrules.time (by simp [made p hp]) n ((hlinked'.producer_iff n p).mp hp)
    rw [same, Except.ok.injEq] at htime
    exact htime.symm
  | @group n p pairs made phony clean same before after _ ih =>
    have hlinked := (hscan.sound hg).1.linked
    have hgrows := hscan.grows hg
    have hgrows' := hnext.grows hg
    have hprod : (g.node n).producer = some p := (hgrows.producer n).symm.trans made
    have made' : (found'.graph.node n).producer = some p := (hgrows'.producer n).trans hprod
    have phony' : (found'.graph.edge p).isPhony := by rw [hgrows'.isPhony, ← hgrows.isPhony, phony]
    have hpath : (found'.graph.node n).path = (found.graph.node n).path := by
      have hlt := Graph.lt_of_producer hprod
      rw [hgrows'.path n hlt, hgrows.path n hlt]
    have hdone := (Scan.known_of_producer made).mp hm
    have hdone' := (Scan.known_of_producer made').mp hn
    have hrules := hscan.edgeRules hg hlt hdone
    have hrules' := hnext.edgeRules hg hlt' hdone'
    have hout := (hlinked.producer_iff n p).mp made
    have hout' := (hlinked'.producer_iff n p).mp made'
    have hfresh : ¬HasStaleInput found.graph found.survey p :=
      fun h => clean ((hrules.phony phony n hout).mpr h)
    have hfresh' : ¬HasStaleInput found'.graph found'.survey p :=
      fun h => hclean ((hrules'.phony phony' n hout').mpr h)
    -- the inputs of the group are as new as they were at the scan
    have hins : ∀ q ∈ pairs, (found'.survey.node q.2).mtime = (found.survey.node q.1).mtime := by
      intro q hq
      have hq₁ : q.1 ∈ (found.graph.edge p).nonOrderOnlyIns := before ▸ List.mem_map_of_mem hq
      have hq₂ : q.2 ∈ (found'.graph.edge p).nonOrderOnlyIns := after ▸ List.mem_map_of_mem hq
      have hin₁ := List.mem_append_left (found.graph.edge p).orderOnlyIns hq₁
      have hin₂ := List.mem_append_left (found'.graph.edge p).orderOnlyIns hq₂
      rw [← hknown q.1 (hlinked.lt_of_in hin₁) fun _ _ => .inr fun h => hfresh ⟨_, hq₁, h⟩]
      exact ih q hq (((hscan.sound hg).1.settled p hdone).known _ hin₁)
        (((hnext.sound hg).1.settled p hdone').known _ hin₂) fun h => hfresh' ⟨_, hq₂, h⟩
    have hnewest : newestInput found'.graph found'.survey p =
        newestInput found.graph found.survey p := by
      rw [newestInput, newestInput, before, after, List.filterMap_map, List.filterMap_map]
      exact congrArg List.max? (List.filterMap_congr hins)
    rw [hknown n (Graph.lt_of_producer made) fun d hd =>
      .inl (Option.some.inj (made.symm.trans hd) ▸ phony)]
    exact Scan.group_mtime_eq hrules hrules' phony phony' hout hout' clean hclean (hpath ▸ same)
      hnewest

/-- So the build did not overlook how new it is. -/
theorem Followed.not_overlooked (hknown : ∀ n < found.graph.nodes.size,
      (∀ p, (found.graph.node n).producer = some p →
        (found.graph.edge p).isPhony ∨ ¬(found.survey.node n).dirty) →
      known.node n = found.survey.node n) (hdone : found.visitOf e = .done)
    (hdone' : found'.visitOf e = .done) {m n : NodeId}
    (h : Followed src src' found found' known m n)
    (hm : m ∈ (found.graph.edge e).nonOrderOnlyIns)
    (hn : n ∈ (found'.graph.edge e).nonOrderOnlyIns) (hclean : ¬(found'.survey.node n).dirty)
    {time : Timestamp} (htime : (found'.survey.node n).mtime = some time) :
    ¬Overlooked found.graph e known time := by
  have hm' : found.Known m :=
    ((hscan.sound hg).1.settled e hdone).known m (List.mem_append_left _ hm)
  have hn' : found'.Known n :=
    ((hnext.sound hg).1.settled e hdone').known n (List.mem_append_left _ hn)
  have heq := h.mtime_eq hg hscan hlt hnext hlt' hknown hm' hn' hclean
  rintro ⟨out, -, holder⟩
  exact UInt64.lt_irrefl _ (holder m (List.mem_cons_of_mem _ hm) time (heq ▸ htime))

end Next

/-- The command of an edge with `restat` has finished in a build, for any number of jobs, any pools,
and in whichever order commands end and how; the build may have ended since, however it ends. In a
scan of the same manifest with the log of that build none of the inputs that are not order-only is
stale, and the outputs exist. Then the outputs are stale exactly if the build did not know that an
input is as new as it is now. They are not stale if the inputs are among those of the build, files
being as the build knew them last, and no name of a group among them having been stale when the
build began. -/
theorem restat_output_stays_clean {host : Host ω} (hhost : host.Faithful underway) {g : Graph}
    (hg : g.Linked) {scanned targets validations : List NodeId}
    (hscan : Scanned src g scanned found) (hlt : ∀ n ∈ scanned, n < g.nodes.size)
    (hsub : targets ++ validations ⊆ scanned) {s : Schedule}
    (hschedule : Program.schedule found targets validations = .ok s) {kept : BuildLog.Kept ω}
    (hkept : underway kept.place = 0) (jobs : Nat) (verbose : Bool)
    (hset : set = ⟨host, found.graph, max jobs 1, verbose⟩)
    (hleads : Leads set ⟨s, kept⟩ events b) (hfinished : .finished e ∈ events)
    (hrestat : g.edgeFlag e "restat") (hb' : b' = b ∨ b' = final (run set ⟨s, kept⟩))
    {scanned' : List NodeId} (hnext : Scanned src' g scanned' found')
    (hlt' : ∀ n ∈ scanned', n < g.nodes.size) (hdone : found'.visitOf e = .done)
    (hlog : ∀ out ∈ (g.edge e).outs, src'.log.find? (g.node out).path =
      b'.kept.log.find? (g.node out).path)
    (hmade : ∀ out ∈ (g.edge e).outs, (b'.schedule.survey.node out).mtime.isSome ∧
      src'.files.stat (g.node out).path ≠ .ok none)
    (hclean : ¬HasStaleInput found'.graph found'.survey e) :
    (∀ out ∈ (g.edge e).outs, (found'.survey.node out).dirty ↔
      ∃ n ∈ (found'.graph.edge e).nonOrderOnlyIns, ∃ time,
        (found'.survey.node n).mtime = some time ∧
          Overlooked found.graph e b'.schedule.survey time) ∧
    ((∀ n ∈ (found'.graph.edge e).nonOrderOnlyIns, ∃ m ∈ (found.graph.edge e).nonOrderOnlyIns,
        Followed src src' found found' b'.schedule.survey m n) →
      ∀ out ∈ (g.edge e).outs, ¬(found'.survey.node out).dirty) := by
  have hprepared := prepared hhost hg hscan hsub hschedule hkept jobs verbose hset
  obtain ⟨later, b₂, hlater, hremains⟩ :=
    hprepared.aftermath hleads (List.ne_nil_of_mem hfinished) hb'
  have hall := hleads.trans hlater
  have hfinished' : .finished e ∈ events ++ later := List.mem_append_left _ hfinished
  have hgrows := hscan.grows hg
  have hgrows' := hnext.grows hg
  have hpath : ∀ out ∈ (g.edge e).outs, (found.graph.node out).path = (g.node out).path ∧
      (found'.graph.node out).path = (g.node out).path := fun out hout => by
    have hlt := Graph.lt_of_producer ((hg.producer_iff out e).mpr hout)
    exact ⟨hgrows.path out hlt, hgrows'.path out hlt⟩
  have hledger := (hprepared.flow hall).ledger
  have hstarted : .started e ∈ events ++ later := hledger.mem_started_of_stopped hfinished' rfl
  have hcommand : (found'.graph.edge e).isPhony = false := by
    rw [hgrows'.isPhony, ← hgrows.isPhony]
    exact hledger.commands e hstarted
  -- what the next scan finds in the log
  have hentry : ∀ out ∈ (g.edge e).outs, ∃ entry,
      src'.log.find? (found'.graph.node out).path = some entry ∧
      entry.commandHash = CommandHash.ofCommand (found'.graph.command e) ∧
      ∀ time : Timestamp, entry.mtime < time.toLog ↔
        ∀ m ∈ out :: (found.graph.edge e).nonOrderOnlyIns, ∀ old,
          (b'.schedule.survey.node m).mtime = some old → old.toLog < time.toLog := by
    intro out hout
    obtain ⟨entry, hfind, hhash, hiff⟩ := hprepared.exists_entry hall hfinished' hremains
      (by rw [hgrows.edgeFlag, hrestat]) (hgrows.outs e ▸ hout) (hmade out hout).1
    refine ⟨entry, ?_, ?_, hiff⟩
    · rw [(hpath out hout).2, hlog out hout, ← (hpath out hout).1, hfind]
    · rw [hhash, hgrows.command, hgrows'.command]
  have houts : (found'.graph.edge e).outs = (g.edge e).outs := hgrows'.outs e
  have hiff : ∀ out ∈ (g.edge e).outs, (found'.survey.node out).dirty ↔
      ∃ n ∈ (found'.graph.edge e).nonOrderOnlyIns, ∃ time,
        (found'.survey.node n).mtime = some time ∧
          Overlooked found.graph e b'.schedule.survey time := by
    intro out hout
    rw [dirty_iff_of_restat (hnext.edgeRules hg hlt' hdone) hcommand
      (by rw [hgrows'.edgeFlag, hrestat]) hclean
      (fun out hout => by rw [(hpath out (houts ▸ hout)).2]; exact (hmade out (houts ▸ hout)).2)
      (fun out hout => (hentry out (houts ▸ hout)).imp fun _ h => ⟨h.1, h.2.1⟩) (houts ▸ hout),
      houts]
    refine exists_congr fun n => and_congr_right fun _ => exists_congr fun time =>
      and_congr_right fun _ => ?_
    rw [Overlooked, hgrows.outs e]
    refine exists_congr fun made => and_congr_right fun hmade => ?_
    obtain ⟨entry, hfind, -, hiff⟩ := hentry made hmade
    rw [hfind, ← hiff time]
    simp
  refine ⟨hiff, fun hfollowed out hout hdirty => ?_⟩
  obtain ⟨n, hn, time, htime, hnew⟩ := (hiff out hout).mp hdirty
  obtain ⟨m, hm, hsame⟩ := hfollowed n hn
  exact hsame.not_overlooked hg hscan hlt hnext hlt'
    (fun n hn hkept => hprepared.known_eq hall hremains hn hkept)
    (hprepared.stale_of_started hall hstarted).1 hdone hm hn
    (fun hdirty => hclean ⟨n, hn, hdirty⟩) htime hnew

/-! ## Two files that commands leave as they are -/

/-- A file is made from a source, and two files from it in turn, one through a group; their commands
leave them as they are. -/
def touched : Graph where
  scopes := .initial
  nodes := #[⟨"src", none, [0], [], false⟩, ⟨"x", some 0, [1, 3], [], false⟩,
    ⟨"all", some 1, [2], [], false⟩, ⟨"far", some 2, [], [], false⟩,
    ⟨"near", some 3, [], [], false⟩]
  edges := #[⟨.rule 0, none, Scopes.root, [1], [], [0], [], [], [], none⟩,
    ⟨.phony, none, Scopes.root, [2], [], [1], [], [], [], none⟩,
    ⟨.rule 1, none, Scopes.root, [3], [], [2], [], [], [], none⟩,
    ⟨.rule 1, none, Scopes.root, [4], [], [1], [], [], [], none⟩]
  rules := #[⟨"touch", ∅⟩, ⟨"keep", ⟨[("restat", .literal "1")]⟩⟩]
  pools := #[]
  defaults := []

/-- The file in between is newer than what is made from it. -/
def touchedFiles : FileView where
  stat path := .ok (if path = "src" then some 1 else if path = "x" then some 3
    else if path = "far" ∨ path = "near" then some 2 else none)
  read _ := .error .missing

/-- What a scan with a log finds out. -/
def touchedScan (log : BuildLog) : Scan :=
  match Scan.all ⟨touchedFiles, log⟩ [3, 4] (.start touched default) with
  | .ok _ found | .error _ found => found

/-- The schedule for a build without a log. -/
def touchedSchedule : Schedule :=
  match Program.schedule (touchedScan .inMemory) [3, 4] [] with
  | .ok s => s
  | .error _ => .start (touchedScan .inMemory).survey

/-- The scan of the build finds both files stale, which cannot be used yet. -/
theorem touched_scanned :
    (Scan.all ⟨touchedFiles, .inMemory⟩ [3, 4] (.start touched default) =
        .ok [] (touchedScan .inMemory) ∧
      (touchedScan .inMemory).graph = touched ∧
      Program.schedule (touchedScan .inMemory) [3, 4] [] = .ok touchedSchedule) ∧
    ([3, 4].map fun n => ((touchedScan .inMemory).survey.node n).dirty) = [true, true] ∧
    ([2, 3].map fun e => ((touchedScan .inMemory).survey.edge e).outputReady) =
      [false, false] := by cbv

/-- Commands run one at a time. -/
def touchedSet : Settings (List EdgeId) :=
  ⟨.steady touchedFiles, (touchedScan .inMemory).graph, max 1 1, false⟩

/-- The state in which the build ends. -/
def touchedBuilt : Build (List EdgeId) := final (run touchedSet ⟨touchedSchedule, .inMemory, []⟩)

/-- How new files are, as the build knows them in the end. -/
theorem touched_built :
    turns touchedSet 9 ⟨touchedSchedule, .inMemory, []⟩ = .ok () touchedBuilt ∧
    ([1, 2, 3, 4].map fun n => (touchedBuilt.schedule.survey.node n).mtime) =
      [some 3, none, some 2, some 2] := by cbv

/-- What the next scan knows of the inputs. -/
theorem touched_next :
    (Scan.all ⟨touchedFiles, touchedBuilt.kept.log⟩ [3, 4] (.start touched default) =
        .ok [] (touchedScan touchedBuilt.kept.log) ∧
      (touchedScan touchedBuilt.kept.log).graph = touched) ∧
    ([1, 2].map fun n => (touchedScan touchedBuilt.kept.log).survey.node n) =
      [⟨.present, some 3, false⟩, ⟨.missing, some 3, false⟩] := by cbv

/-- Both commands that restat finish. -/
theorem touched_finished : ∃ events b, Leads touchedSet ⟨touchedSchedule, .inMemory, []⟩ events b ∧
    .finished 2 ∈ events ∧ .finished 3 ∈ events := by
  obtain ⟨⟨hscan, hgraph, hschedule⟩, hstale⟩ := touched_scanned
  have hprepared : Prepared touchedSet _ _ _ _ ⟨touchedSchedule, .inMemory, []⟩ :=
    prepared (Host.steady_faithful touchedFiles) (g := touched) (by decide) (.all .start hscan)
      (by simp) hschedule rfl 1 false rfl
  have hsucceeds : Succeeds touchedSet ⟨touchedSchedule, .inMemory, []⟩ :=
    steady_succeeds rfl (fun _ => ⟨_, rfl⟩) _
  obtain ⟨events, b, hleads, hhalts⟩ := hprepared.halts .refl
  rw [show touchedSet.graph = touched from hgraph,
    show 2 * touched.edges.size + 1 = 9 from rfl, touched_built.1] at hhalts
  cases hhalts with
  | complete hturn =>
    have hcomplete := (hprepared.complete hleads (hsucceeds.not_failed hleads) hturn).2
    obtain ⟨⟨hfar, hnear⟩, hfarReady, hnearReady⟩ :
        (((touchedScan .inMemory).survey.node 3).dirty ∧
          ((touchedScan .inMemory).survey.node 4).dirty) ∧
        ((touchedScan .inMemory).survey.edge 2).outputReady = false ∧
          ((touchedScan .inMemory).survey.edge 3).outputReady = false := by
      simpa using hstale
    -- what is a stale target and has a command is finished
    have hfinished : ∀ n e, n ∈ [3, 4] → (touched.node n).producer = some e →
        (touched.edge e).isPhony = false →
        ((touchedScan .inMemory).survey.edge e).outputReady = false →
        ((touchedScan .inMemory).survey.node n).dirty → .finished e ∈ events := by
      intro n e hn hp hcommand hready hdirty
      rw [← hgraph] at hp hcommand
      have hout := (hprepared.sound.linked.producer_iff n e).mp hp
      have hneeded : Schedule.Needed _ (touchedScan .inMemory).survey ([3, 4] ++ []) e :=
        .target (by simpa using hn) hp (by rw [hready]; simp)
      exact (hcomplete.run e ((hcomplete.taken e).2.mpr ⟨hneeded, n, hout, hdirty⟩) hcommand).2.1
    exact ⟨events, b, hleads, hfinished 3 2 (by simp) rfl rfl hfarReady hfar,
      hfinished 4 3 (by simp) rfl rfl hnearReady hnear⟩

/-- The file that is made through the group is stale again, the other one is not. -/
theorem restat_output_stays_clean_touched :
    ((touchedScan touchedBuilt.kept.log).survey.node 3).dirty ∧
      ¬((touchedScan touchedBuilt.kept.log).survey.node 4).dirty := by
  obtain ⟨events, b, hleads, hfar, hnear⟩ := touched_finished
  obtain ⟨⟨hscan, hgraph, hschedule⟩, -⟩ := touched_scanned
  obtain ⟨⟨hscan', hgraph'⟩, hinputs⟩ := touched_next
  have hhost := Host.steady_faithful touchedFiles
  have hscanned := Scanned.all .start hscan
  have hnext := Scanned.all .start hscan'
  have hlt : ∀ n ∈ [] ++ ([3, 4] ++ []), n < touched.nodes.size := by decide
  obtain ⟨hx, hall, hfarTime, hnearTime⟩ :
      (touchedBuilt.schedule.survey.node 1).mtime = some 3 ∧
        (touchedBuilt.schedule.survey.node 2).mtime = none ∧
        (touchedBuilt.schedule.survey.node 3).mtime = some 2 ∧
        (touchedBuilt.schedule.survey.node 4).mtime = some 2 := by
    simpa using touched_built.2
  obtain ⟨hx', hall'⟩ :
      (touchedScan touchedBuilt.kept.log).survey.node 1 = ⟨.present, some 3, false⟩ ∧
        (touchedScan touchedBuilt.kept.log).survey.node 2 = ⟨.missing, some 3, false⟩ := by
    simpa using hinputs
  have hrestat : ∀ e n m, .finished e ∈ events → touched.edgeFlag e "restat" →
      (touchedScan touchedBuilt.kept.log).visitOf e = .done → (touched.edge e).outs = [n] →
      (touched.edge e).nonOrderOnlyIns = [m] →
      (touchedBuilt.schedule.survey.node n).mtime.isSome →
      touchedFiles.stat (touched.node n).path ≠ .ok none →
      ((touchedScan touchedBuilt.kept.log).survey.node m).dirty = false → _ :=
    fun e n m hfinished hflag hdone houts hins htime hfile hclean =>
      restat_output_stays_clean hhost (by decide) hscanned hlt (by simp) hschedule rfl 1
        false (rfl : touchedSet = _) hleads hfinished hflag
        (.inr rfl : touchedBuilt = b ∨ touchedBuilt = _) hnext hlt hdone (fun _ _ => rfl)
        (by rw [houts]; exact List.forall_mem_singleton.mpr ⟨htime, hfile⟩)
        (by
          rintro ⟨d, hd, hdirty⟩
          rw [hgraph', hins, List.mem_singleton] at hd
          rw [hd, hclean] at hdirty
          cases hdirty)
  constructor
  · obtain ⟨hiff, -⟩ := hrestat 2 3 2 hfar (by cbv) (by cbv) rfl rfl (by rw [hfarTime]; rfl)
      (by rintro ⟨⟩) (by rw [hall'])
    refine (hiff 3 (by decide)).mpr
      ⟨2, hgraph' ▸ (by decide), 3, by rw [hall'], 3, hgraph ▸ (by decide), ?_⟩
    rw [hgraph]
    refine List.forall_mem_cons.mpr
      ⟨fun old hold => ?_, List.forall_mem_singleton.mpr fun old hold => ?_⟩
    · obtain rfl := Option.some.inj (hfarTime.symm.trans hold)
      decide
    · cases hall.symm.trans hold
  · obtain ⟨-, hfollowed⟩ := hrestat 3 4 1 hnear (by cbv) (by cbv) rfl rfl
      (by rw [hnearTime]; rfl) (by rintro ⟨⟩) (by rw [hx'])
    refine hfollowed (fun n hn => ⟨1, hgraph ▸ (by decide), ?_⟩) 4 (by decide)
    rw [hgraph'] at hn
    obtain rfl := List.mem_singleton.mp (show n ∈ [1] from hn)
    refine .file (by rw [hgraph, hgraph']) (fun p hp => ?_) (by rw [hgraph', hx]; rfl)
    rw [hgraph'] at hp ⊢
    obtain rfl : 0 = p := Option.some.inj hp
    rfl

end Build

end Rebuild
