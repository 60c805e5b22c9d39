import Mathlib
import Rebuild.Proofs.Scan.Outcome
import Rebuild.Proofs.Schedule.Cascade
import Rebuild.Proofs.Targets.Defaults

/-!
# Scanning after files were made anew

Between two scans of a graph some edges have made their outputs anew, each after all that goes into
them, and everything else is as it was. If the first scan found nothing stale among the rest, the
second one finds no output stale. The induction is on what an edge depends on: what was not made
anew stays as new as it was, and what was made anew is newer than any file that goes into it, be it
through names of groups.
-/

namespace Rebuild

open Relation (ReflTransGen)

/-- What makes something that goes into a target is found from the targets. -/
theorem Graph.Reached.of_madeFrom {g : Graph} {targets : List NodeId} {m n : NodeId} {e : EdgeId}
    (hm : m ∈ targets) (hn : ReflTransGen g.MadeFrom m n) (he : (g.node n).producer = some e) :
    g.Reached targets e := by
  induction hn generalizing e with
  | refl => exact ⟨m, hm, e, he, .refl⟩
  | tail _ hstep ih =>
    obtain ⟨d, hd, hin⟩ := hstep
    exact (ih hd).feeds ⟨_, hin, he⟩

/-- An edge that is found makes something. -/
theorem Graph.Reached.exists_out {g : Graph} (hg : g.Linked) {targets : List NodeId} {e : EdgeId}
    (h : g.Reached targets e) : ∃ out, out ∈ (g.edge e).outs := by
  obtain ⟨n, -, first, hfirst, hreach⟩ := h
  induction hreach using ReflTransGen.head_induction_on with
  | refl => exact ⟨n, (hg.producer_iff n _).mp hfirst⟩
  | head hstep _ _ =>
    obtain ⟨m, -, hprod⟩ := hstep
    exact ⟨m, (hg.producer_iff m _).mp hprod⟩

namespace Scan

variable {g : Graph} {scanned : List NodeId} {src src' : Sources} {s found found' : Scan}
  {e : EdgeId} {n : NodeId}

/-- A scan is done with every edge that is found from what was scanned. -/
theorem Scanned.done_of_reached (hg : g.Linked) (h : Scanned src g scanned s)
    (he : s.graph.Reached scanned e) : s.visitOf e = .done := by
  obtain ⟨hsound, hknown⟩ := h.sound hg
  obtain ⟨n, hn, first, hfirst, hreach⟩ := he
  induction hreach using ReflTransGen.head_induction_on with
  | refl => exact (known_of_producer hfirst).mp (hknown n hn)
  | head hstep _ ih =>
    obtain ⟨m, hm, hprod⟩ := hstep
    exact (known_of_producer hprod).mp ((hsound.settled _ ih).known m hm)

/-- A file counts as new as it is, or as something is that goes into it. -/
theorem Scanned.exists_file (hg : g.Linked) (hlt : ∀ n ∈ scanned, n < g.nodes.size)
    (h : Scanned src g scanned s) (hknown : s.Known n) {time : Timestamp}
    (htime : (s.survey.node n).mtime = some time) :
    ∃ m, ReflTransGen s.graph.MadeFrom n m ∧
      src.files.stat (s.graph.node m).path = .ok (some time) := by
  have hsound := (h.sound hg).1
  have hleaf : ∀ {n}, (s.graph.node n).producer = none → s.Known n →
      (s.survey.node n).mtime = some time →
        src.files.stat (s.graph.node n).path = .ok (some time) :=
    fun hp hknown htime => htime ▸ (h.leafRules hg hlt hp hknown).time
  cases hp : (s.graph.node n).producer with
  | none => exact ⟨n, .refl, hleaf hp hknown htime⟩
  | some e =>
    have hdone := (known_of_producer hp).mp hknown
    have hacc := (hsound.settled e hdone).founded
    induction hacc generalizing n with
    | intro e _ ih =>
      have hrules := h.edgeRules hg hlt hdone
      have hout := (hsound.linked.producer_iff n e).mp hp
      by_cases hphony : (s.graph.edge e).isPhony
      · by_cases hkept : (s.survey.node n).dirty ∨ newestInput s.graph s.survey e = none
        · exact ⟨n, .refl, htime ▸ hrules.kept hphony n hout hkept⟩
        obtain ⟨hclean, hsome⟩ := not_or.mp hkept
        obtain ⟨new, hnew⟩ := Option.ne_none_iff_exists'.mp hsome
        obtain ⟨i, hi, hsame⟩ := exists_of_newestInput hnew
        rw [← hrules.adopted hphony n hout hclean new hnew, htime] at hsame
        have hin : i ∈ (s.graph.edge e).ins := List.mem_append_left _ hi
        have hi' := (hsound.settled e hdone).known i hin
        cases hpi : (s.graph.node i).producer with
        | none => exact ⟨i, .single ⟨e, hp, hin⟩, hleaf hpi hi' hsame⟩
        | some p =>
          obtain ⟨m, hm, hfile⟩ :=
            ih p ⟨i, hin, hpi⟩ hi' hsame hpi ((known_of_producer hpi).mp hi')
          exact ⟨m, .head ⟨e, hp, hin⟩ hm, hfile⟩
      · exact ⟨n, .refl, htime ▸ hrules.time hphony n hout⟩

/-! ## What was made anew -/

/-- An output was made at a time by the command as it is now, after all that goes into it, and
recorded as new as it is. -/
structure MadeAt (src : Sources) (g : Graph) (e : EdgeId) (out : NodeId) (made : Timestamp) :
    Prop where
  file : src.files.stat (g.node out).path = .ok (some made)
  entry : ∃ entry, src.log.find? (g.node out).path = some entry ∧
    entry.commandHash = CommandHash.ofCommand (g.command e) ∧ entry.mtime = made.toLog
  newest : ∀ i ∈ (g.edge e).ins, ∀ m, ReflTransGen g.MadeFrom i m → ∀ time,
    src.files.stat (g.node m).path = .ok (some time) → time ≤ made

theorem MadeAt.not_outOfDate {out : NodeId} {made : Timestamp} (h : MadeAt src g e out made)
    {newest : Option Timestamp} (hnewest : ∀ new, newest = some new → new ≤ made) :
    ¬OutOfDate src g e newest out := by
  obtain ⟨entry, hentry, hhash, hmtime⟩ := h.entry
  rintro (hnone | ⟨-, new, old, hnew, hold, holder⟩ | ⟨-, hother⟩ |
    ⟨new, last, hnew, hlast, holder⟩)
  · rw [h.file] at hnone
    cases hnone
  · rw [h.file] at hold
    cases hold
    exact absurd holder (not_lt.mpr (hnewest new hnew))
  · exact hother entry hentry hhash
  · obtain rfl := Option.some.inj (hentry.symm.trans hlast)
    rw [hmtime] at holder
    exact absurd (Timestamp.toLog_mono (hnewest new hnew)) (UInt64.not_le.mpr holder)

/-- What the outputs of an edge are between two scans: as they were, and not found stale, unless the
edge groups files; or made anew, because they were. -/
inductive Renewed (src src' : Sources) (found : Scan) (e : EdgeId) : Prop
  | kept (file : ∀ out ∈ (found.graph.edge e).outs, src'.files.stat (found.graph.node out).path =
      src.files.stat (found.graph.node out).path)
    (entry : ∀ out ∈ (found.graph.edge e).outs, src'.log.find? (found.graph.node out).path =
      src.log.find? (found.graph.node out).path)
    (clean : (found.graph.edge e).isPhony ∨
      ∀ out ∈ (found.graph.edge e).outs, ¬(found.survey.node out).dirty)
  | made (command : (found.graph.edge e).isPhony = false)
    (stale : ∀ out ∈ (found.graph.edge e).outs, (found.survey.node out).dirty)
    (outs : ∀ out ∈ (found.graph.edge e).outs, ∃ made, MadeAt src' found.graph e out made)

/-- Between two scans of a graph nothing changes but what some edges make anew, and everything that
has to be there is. -/
structure Renewal (src src' : Sources) (found : Scan) (targets : List NodeId) : Prop where
  leaf : ∀ n < found.graph.nodes.size, (found.graph.node n).producer = none →
    src'.files.stat (found.graph.node n).path = src.files.stat (found.graph.node n).path
  edge : ∀ e, found.graph.Reached targets e → Renewed src src' found e
  supplied : ∀ e, found.graph.Reached targets e → ∀ n ∈ (found.graph.edge e).nonOrderOnlyIns,
    (found.graph.node n).producer = none → ¬(found.survey.node n).dirty

/-- A file is not stale in the next scan, and as new as before if it was not stale then. -/
def StaysClean (found found' : Scan) (n : NodeId) : Prop :=
  ¬(found'.survey.node n).dirty ∧ (¬(found.survey.node n).dirty →
    (found'.survey.node n).mtime = (found.survey.node n).mtime)

/-- An edge whose inputs are not stale has the newest of them as before, if they were not stale
then. -/
theorem newestInput_eq (hsame : found'.graph = found.graph)
    (hins : ∀ n ∈ (found.graph.edge e).nonOrderOnlyIns, StaysClean found found' n)
    (hclean : ¬HasStaleInput found.graph found.survey e) :
    newestInput found'.graph found'.survey e = newestInput found.graph found.survey e := by
  rw [newestInput, newestInput, hsame]
  exact congrArg List.max? (List.filterMap_congr fun n hn =>
    (hins n hn).2 fun hdirty => hclean ⟨n, hn, hdirty⟩)

section Next

variable (hg : g.Linked) (hscan : Scanned src g scanned found)
  (hlt : ∀ n ∈ scanned, n < g.nodes.size) (hnext : Scanned src' g scanned found')
  (hsame : found'.graph = found.graph)
include hg hscan hlt hnext hsame

/-- A file that nothing makes is as it was. -/
theorem staysClean_of_leaf (hp : (found.graph.node n).producer = none)
    (hfile : src'.files.stat (found.graph.node n).path = src.files.stat (found.graph.node n).path)
    (hknown : found.Known n) (hknown' : found'.Known n) (hclean : ¬(found.survey.node n).dirty) :
    StaysClean found found' n := by
  have hrules := hscan.leafRules hg hlt hp hknown
  have hrules' := hnext.leafRules hg hlt (hsame ▸ hp) hknown'
  have htime := hrules'.time
  rw [hsame, hfile, hrules.time, Except.ok.injEq] at htime
  refine ⟨?_, fun _ => htime.symm⟩
  rwa [hrules'.dirty, hsame, hfile, ← hrules.dirty]

/-- An edge that was not renewed says the same of its outputs as before, or if it groups files what
it says of its inputs. -/
theorem staysClean_of_kept (hdone : found.visitOf e = .done) (hdone' : found'.visitOf e = .done)
    (hins : ∀ n ∈ (found.graph.edge e).nonOrderOnlyIns, StaysClean found found' n)
    (hfile : ∀ out ∈ (found.graph.edge e).outs, src'.files.stat (found.graph.node out).path =
      src.files.stat (found.graph.node out).path)
    (hentry : ∀ out ∈ (found.graph.edge e).outs, src'.log.find? (found.graph.node out).path =
      src.log.find? (found.graph.node out).path)
    (hclean : (found.graph.edge e).isPhony ∨
      ∀ out ∈ (found.graph.edge e).outs, ¬(found.survey.node out).dirty)
    (hn : n ∈ (found.graph.edge e).outs) : StaysClean found found' n := by
  have hrules := hscan.edgeRules hg hlt hdone
  have hrules' := hnext.edgeRules hg hlt hdone'
  rw [hsame] at hrules'
  have hfresh' : ¬HasStaleInput found.graph found'.survey e :=
    fun ⟨m, hm, hdirty⟩ => (hins m hm).1 hdirty
  have hnewest := newestInput_eq hsame hins
  rw [hsame] at hnewest
  by_cases hphony : (found.graph.edge e).isPhony
  · have hdirty' : ¬(found'.survey.node n).dirty := fun h =>
      hfresh' ((hrules'.phony hphony n hn).mp h)
    refine ⟨hdirty', fun hdirty => ?_⟩
    have hfresh := fun h => hdirty ((hrules.phony hphony n hn).mpr h)
    exact group_mtime_eq hrules hrules' hphony hphony hn hn hdirty hdirty' (hfile n hn)
      (hnewest hfresh)
  · have hdirty := hclean.resolve_left hphony n hn
    obtain ⟨hfresh, hcurrent⟩ := not_or.mp (mt (hrules.command hphony n hn).mpr hdirty)
    have htime := hrules'.time hphony n hn
    rw [hfile n hn, hrules.time hphony n hn, Except.ok.injEq] at htime
    refine ⟨fun h => ?_, fun _ => htime.symm⟩
    obtain ⟨out, hout, hold⟩ := ((hrules'.command hphony n hn).mp h).resolve_left hfresh'
    rw [hnewest hfresh, OutOfDate, hfile out hout, hentry out hout] at hold
    exact hcurrent ⟨out, hout, hold⟩

omit hscan in
/-- An edge that was renewed has outputs that are newer than its inputs. -/
theorem clean_of_made (hdone' : found'.visitOf e = .done)
    (hins : ∀ n ∈ (found.graph.edge e).nonOrderOnlyIns, StaysClean found found' n)
    (hcommand : (found.graph.edge e).isPhony = false)
    (houts : ∀ out ∈ (found.graph.edge e).outs, ∃ made, MadeAt src' found.graph e out made)
    (hn : n ∈ (found.graph.edge e).outs) : ¬(found'.survey.node n).dirty := by
  have hrules' := hnext.edgeRules hg hlt hdone'
  rw [hsame] at hrules'
  rw [hrules'.command (by simp [hcommand]) n hn]
  rintro (⟨m, hm, hdirty⟩ | ⟨out, hout, hold⟩)
  · exact (hins m hm).1 hdirty
  · obtain ⟨made, hmade⟩ := houts out hout
    refine hmade.not_outOfDate (fun new hnew => ?_) hold
    obtain ⟨i, hi, htime⟩ := exists_of_newestInput hnew
    have hin : i ∈ (found.graph.edge e).ins := List.mem_append_left _ hi
    have hknown := ((hnext.sound hg).1.settled e hdone').known i (hsame ▸ hin)
    obtain ⟨m, hm, hfile⟩ := hnext.exists_file hg hlt hknown htime
    rw [hsame] at hm hfile
    exact hmade.newest i hin m hm new hfile

/-- After a renewal no output is stale of an edge that is found from the targets. -/
theorem Renewal.staysClean (h : Renewal src src' found scanned)
    (he : found.graph.Reached scanned e) (hn : n ∈ (found.graph.edge e).outs) :
    StaysClean found found' n := by
  obtain ⟨hsound, -⟩ := hscan.sound hg
  obtain ⟨hsound', -⟩ := hnext.sound hg
  have hdone : ∀ {e}, found.graph.Reached scanned e → found.visitOf e = .done ∧
      found'.visitOf e = .done := fun he =>
    ⟨hscan.done_of_reached hg he, hnext.done_of_reached hg (hsame ▸ he)⟩
  have hacc := (hsound.settled e (hdone he).1).founded
  induction hacc generalizing n with
  | intro e _ ih =>
    obtain ⟨hdone, hdone'⟩ := hdone he
    have hins : ∀ m ∈ (found.graph.edge e).nonOrderOnlyIns, StaysClean found found' m := by
      intro m hm
      have hin : m ∈ (found.graph.edge e).ins := List.mem_append_left _ hm
      cases hp : (found.graph.node m).producer with
      | none =>
        exact staysClean_of_leaf hg hscan hlt hnext hsame hp
          (h.leaf m (hsound.linked.lt_of_in hin) hp) ((hsound.settled e hdone).known m hin)
          ((hsound'.settled e hdone').known m (hsame ▸ hin)) (h.supplied e he m hm hp)
      | some p =>
        exact ih p ⟨m, hin, hp⟩ (he.feeds ⟨m, hin, hp⟩) ((hsound.linked.producer_iff m p).mp hp)
    cases h.edge e he with
    | kept hfile hentry hclean =>
      exact staysClean_of_kept hg hscan hlt hnext hsame hdone hdone' hins hfile hentry hclean hn
    | made hcommand hstale houts =>
      exact ⟨clean_of_made hg hlt hnext hsame hdone' hins hcommand houts hn,
        fun hclean => absurd (hstale n hn) hclean⟩

/-- So all these edges can be used as they are. -/
theorem Renewal.outputReady (h : Renewal src src' found scanned)
    (he : found.graph.Reached scanned e) : (found'.survey.edge e).outputReady := by
  obtain ⟨hsound', -⟩ := hnext.sound hg
  have hdone : ∀ {e}, found.graph.Reached scanned e → found'.visitOf e = .done := fun he =>
    hnext.done_of_reached hg (hsame ▸ he)
  have hacc := (hsound'.settled e (hdone he)).founded
  induction hacc with
  | intro e _ ih =>
    have hset := hsound'.settled e (hdone he)
    obtain ⟨out, hout⟩ := he.exists_out (hsame ▸ hsound'.linked)
    have hclean := (h.staysClean hg hscan hlt hnext hsame he hout).1
    rw [hset.dirty out (hsame ▸ hout), Bool.not_eq_true] at hclean
    rw [hset.ready, isIdle, hclean, Bool.false_and, Bool.not_false, Bool.and_true,
      Schedule.inputsReady_iff, hsame]
    exact fun n hn p hp => ih p ⟨n, hsame ▸ hn, hsame ▸ hp⟩ (he.feeds ⟨n, hn, hp⟩)

end Next

end Scan

end Rebuild
