import Mathlib
import Rebuild.Proofs.Scan.Visit

/-!
# The rules of staleness

What a scan says about files follows from the files themselves, the log, and what it says about
inputs. A file that nothing makes is stale if it does not exist. The outputs of an edge are stale
together: if an input that is not order-only is, or, unless the edge only groups files, if an output
is out of date compared with the newest of these inputs.

The rules are stated without the scan: they name no summary and no order in which files are looked
at. `flags_follow_rules` shows them for everything that the target of a scan needs, given that
nothing was known before.
-/

namespace Rebuild.Scan

/-! ## The rules -/

/-- The time of the newest input that is not order-only, if any of them has one. -/
def newestInput (g : Graph) (survey : Survey) (e : EdgeId) : Option Timestamp :=
  ((g.edge e).nonOrderOnlyIns.filterMap fun n => (survey.node n).mtime).max?

/-- An input is stale that is not order-only. -/
def HasStaleInput (g : Graph) (survey : Survey) (e : EdgeId) : Prop :=
  ∃ n ∈ (g.edge e).nonOrderOnlyIns, (survey.node n).dirty

/-- An output of an edge is out of date, `newest` being the time of the newest input: it is missing;
or older than that, unless the edge restats its outputs; or not known to be made by the command as
it is now, unless the edge is a generator; or was recorded when it was older than that. -/
def OutOfDate (src : Sources) (g : Graph) (e : EdgeId) (newest : Option Timestamp) (out : NodeId) :
    Prop :=
  src.files.stat (g.node out).path = .ok none ∨
  (g.edgeFlag e "restat" = false ∧ ∃ new old, newest = some new ∧
    src.files.stat (g.node out).path = .ok (some old) ∧ old < new) ∨
  (g.edgeFlag e "generator" = false ∧ ∀ entry, src.log.find? (g.node out).path = some entry →
    entry.commandHash ≠ CommandHash.ofCommand (g.command e)) ∨
  ∃ new entry, newest = some new ∧ src.log.find? (g.node out).path = some entry ∧
    entry.mtime < new.toLog

/-- What is known about a file that nothing makes: how new it is, if it exists. -/
structure LeafRules (files : FileView) (g : Graph) (survey : Survey) (n : NodeId) : Prop where
  time : files.stat (g.node n).path = .ok (survey.node n).mtime
  dirty : (survey.node n).dirty ↔ files.stat (g.node n).path = .ok none

/-- What is known about the outputs of an edge. -/
structure EdgeRules (src : Sources) (g : Graph) (survey : Survey) (e : EdgeId) : Prop where
  shared : ∀ m ∈ (g.edge e).outs, ∀ n ∈ (g.edge e).outs,
    (survey.node m).dirty = (survey.node n).dirty
  phony : (g.edge e).isPhony → ∀ n ∈ (g.edge e).outs,
    ((survey.node n).dirty ↔ HasStaleInput g survey e)
  command : ¬(g.edge e).isPhony → ∀ n ∈ (g.edge e).outs, ((survey.node n).dirty ↔
    HasStaleInput g survey e ∨ ∃ out ∈ (g.edge e).outs,
      OutOfDate src g e (newestInput g survey e) out)
  time : ¬(g.edge e).isPhony → ∀ n ∈ (g.edge e).outs,
    src.files.stat (g.node n).path = .ok (survey.node n).mtime
  adopted : (g.edge e).isPhony → ∀ n ∈ (g.edge e).outs, ¬(survey.node n).dirty →
    ∀ new, newestInput g survey e = some new → (survey.node n).mtime = some new
  kept : (g.edge e).isPhony → ∀ n ∈ (g.edge e).outs,
    (survey.node n).dirty ∨ newestInput g survey e = none →
    src.files.stat (g.node n).path = .ok (survey.node n).mtime

/-- What is known about a file by the rules. -/
structure FollowsRules (src : Sources) (s : Scan) (n : NodeId) : Prop where
  leaf : (s.graph.node n).producer = none → LeafRules src.files s.graph s.survey n
  made : ∀ e, (s.graph.node n).producer = some e → EdgeRules src s.graph s.survey e

/-! ## Summaries -/

section Summaries

variable {log : BuildLog} {g : Graph} {survey : Survey} {e : EdgeId}

private theorem dirty_foldl_add (ids : List NodeId) (sum : InputSummary) :
    (ids.foldl (fun sum n => sum.add (survey.node n)) sum).dirty =
      (sum.dirty || ids.any fun n => (survey.node n).dirty) := by
  induction ids generalizing sum with
  | nil => simp
  | cons n ids ih =>
    rw [List.foldl_cons, ih, List.any_cons, ← Bool.or_assoc]
    congr 1
    unfold InputSummary.add
    by_cases h : (survey.node n).dirty <;> simp [h]

theorem dirty_summary : (summary g survey e).dirty ↔ HasStaleInput g survey e := by
  rw [summary, dirty_foldl_add, Bool.false_or, List.any_eq_true, HasStaleInput]

private theorem max?_toList_append (l r : List Timestamp) :
    (l.max?.toList ++ r).max? = (l ++ r).max? := by
  cases l with
  | nil => rfl
  | cons x l =>
    rw [List.max?_cons', Option.toList_some, List.singleton_append, List.cons_append,
      List.max?_cons', List.max?_cons', List.foldl_append]

private theorem latest_eq_max? (a b : Option Timestamp) :
    Timestamp.latest a b = (a.toList ++ b.toList).max? := by
  cases a with
  | none => cases b <;> rfl
  | some x =>
    cases b with
    | none => rfl
    | some y =>
      simp only [Timestamp.latest, Timestamp.isLater, Option.toList_some, List.singleton_append,
        List.max?_cons, decide_eq_true_eq]
      rcases lt_or_ge x y with h | h
      · simp [h, max_eq_right (le_of_lt h)]
      · simp [not_lt.mpr h, max_eq_left h]

private theorem newest_foldl_add {ids : List NodeId} (hclean : ∀ n ∈ ids, ¬(survey.node n).dirty)
    (sum : InputSummary) : (ids.foldl (fun sum n => sum.add (survey.node n)) sum).newest =
      (sum.newest.toList ++ ids.filterMap fun n => (survey.node n).mtime).max? := by
  induction ids generalizing sum with
  | nil => cases h : sum.newest <;> simp [h]
  | cons n ids ih =>
    have hn : sum.add (survey.node n) =
        { sum with newest := Timestamp.latest sum.newest (survey.node n).mtime } := by
      rw [InputSummary.add, if_neg (hclean n List.mem_cons_self)]
    rw [List.foldl_cons, ih fun m hm => hclean m (List.mem_cons_of_mem n hm), hn]
    dsimp only
    rw [latest_eq_max?, max?_toList_append, List.append_assoc]
    cases h : (survey.node n).mtime <;> simp [h]

/-- Stale inputs are left out of the summary, but without them it has the newest time of all. -/
theorem newest_summary (hclean : ¬HasStaleInput g survey e) :
    (summary g survey e).newest = newestInput g survey e := by
  rw [summary, newest_foldl_add fun n hn hdirty => hclean ⟨n, hn, hdirty⟩]
  rfl

/-- Looking at an output is deciding whether it is out of date. -/
theorem isOutputStale_iff {src : Sources} {newest time : Option Timestamp} {n : NodeId}
    (hfile : src.files.stat (g.node n).path = .ok time) (htime : (survey.node n).mtime = time)
    (hexists : (survey.node n).existence = if time.isSome then .present else .missing) :
    isOutputStale src.log g survey e newest n ↔ OutOfDate src g e newest n := by
  unfold isOutputStale OutOfDate
  simp only [hfile, htime, hexists]
  cases time with
  | none => simp
  | some old =>
    cases hlog : src.log.find? (g.node n).path with
    | none =>
      cases newest <;> cases g.edgeFlag e "restat" <;> cases g.edgeFlag e "generator" <;>
        simp [Timestamp.isLater]
    | some entry =>
      cases newest <;> cases g.edgeFlag e "restat" <;> cases g.edgeFlag e "generator" <;>
        simp [Timestamp.isLater]

end Summaries

/-! ## Files that were looked at -/

/-- What is known about a file agrees with the file, apart from whether it is stale and, for an
output of an edge that only groups files, how new it is. -/
def AsFile (files : FileView) (path : String) (n : NodeState) (mtime : Option Timestamp) : Prop :=
  files.stat path = .ok mtime ∧ n.existence = if mtime.isSome then .present else .missing

/-- What is known about a file that nothing makes and that was looked at. -/
structure LeafExamined (files : FileView) (s : Scan) (n : NodeId) : Prop where
  within : n < s.graph.nodes.size
  file : AsFile files (s.graph.node n).path (s.survey.node n) (s.survey.node n).mtime
  dirty : (s.survey.node n).dirty = (s.survey.node n).mtime.isNone

/-- What is known about an output of an edge that was come to. Outputs of a phony edge become as new
as its newest input when it is concluded, unless they are stale. -/
def OutExamined (files : FileView) (s : Scan) (e : EdgeId) (n : NodeId) : Prop :=
  ∃ mtime, AsFile files (s.graph.node n).path (s.survey.node n) mtime ∧
    (s.survey.node n).mtime =
      if s.visitOf e = .done ∧ (s.graph.edge e).isPhony ∧ ¬(s.survey.node n).dirty then
        (summary s.graph s.survey e).newest.or mtime
      else mtime

/-- All that is known about files comes from looking at them, outputs when their edge is opened. -/
structure Examined (files : FileView) (s : Scan) : Prop where
  leaf : ∀ n, (s.graph.node n).producer = none → (s.survey.node n).isStatted →
    LeafExamined files s n
  fresh : ∀ n e, (s.graph.node n).producer = some e → s.visitOf e = .unvisited →
    ¬(s.survey.node n).isStatted
  out : ∀ n e, (s.graph.node n).producer = some e → s.visitOf e ≠ .unvisited →
    OutExamined files s e n

section Examined

variable {src : Sources} {files : FileView} {own : Option EdgeId} {s t : Scan}

theorem LeafExamined.onward (h : Onward own s t) {n : NodeId}
    (hn : (s.graph.node n).producer = none) (hstat : (s.survey.node n).isStatted)
    (hx : LeafExamined files s n) : LeafExamined files t n := by
  refine ⟨Nat.lt_of_lt_of_le hx.within h.graph.nodes_size, ?_, ?_⟩
  · rw [h.leaf n hn hstat, h.graph.path n hx.within]
    exact hx.file
  · rw [h.leaf n hn hstat]
    exact hx.dirty

/-- What is known about the outputs of an edge stays while other edges are worked on. -/
theorem OutExamined.onward {log : BuildLog} (hs : Orderly log s) (h : Onward own s t)
    (hown : ∀ e, own = some e → s.visitOf e ≠ .done) {e : EdgeId} {n : NodeId}
    (hn : (s.graph.node n).producer = some e) (he : some e ≠ own)
    (hvisit : s.visitOf e ≠ .unvisited) (hx : OutExamined files s e n) :
    OutExamined files t e n := by
  obtain ⟨mtime, hfile, hmtime⟩ := hx
  have hedge := (h.kept e he (.inl hvisit)).1
  refine ⟨mtime, ?_, ?_⟩
  · rw [h.out n e hn he hvisit, h.graph.path n (Graph.lt_of_producer hn)]
    exact hfile
  · rw [h.out n e hn he hvisit, h.visitOf_eq he hvisit, hedge, hmtime]
    by_cases hdone : s.visitOf e = .done
    · have hsum : summary t.graph t.survey e = summary s.graph s.survey e :=
        summary_congr hedge fun m hm =>
          h.node_eq hown ((hs.closed e hdone).known m (List.mem_append_left _ hm))
      rw [hsum]
    · rw [if_neg fun hand => hdone hand.1, if_neg fun hand => hdone hand.1]

private theorem Opens.outExamined {id : EdgeId} (h : Opens files id s t) (hs : s.graph.Linked)
    {n : NodeId} (hn : (s.graph.node n).producer = some id)
    (hfresh : ¬(s.survey.node n).isStatted) : OutExamined files t id n := by
  have hout := h.out n ((hs.producer_iff n id).mp hn)
  rw [StattedAs, if_neg hfresh] at hout
  obtain ⟨mtime, hfile, hnode⟩ := hout
  have hpath := (h.adds hs).grows.path n (Graph.lt_of_producer hn)
  refine ⟨mtime, ⟨hpath ▸ hfile, by rw [hnode]; rfl⟩, ?_⟩
  have hopen : ¬(t.visitOf id = .done ∧ (t.graph.edge id).isPhony ∧ ¬(t.survey.node n).dirty) :=
    fun hand => by simp [h.visitOf_eq] at hand
  rw [if_neg hopen, hnode]
  rfl

private theorem Holds.outExamined {id : EdgeId} (h : Holds id s t) {n : NodeId}
    (hx : OutExamined files s id n) : OutExamined files t id n := by
  obtain ⟨mtime, hfile, hmtime⟩ := hx
  refine ⟨mtime, by rw [h.graph, h.node]; exact hfile, ?_⟩
  rw [h.node, h.visitOf_eq, h.graph, hmtime]
  simp [h.current]

private theorem Concludes.outExamined {log : BuildLog} {id : EdgeId} (h : Concludes log id s t)
    (hs : s.graph.Linked) {n : NodeId} (hn : (s.graph.node n).producer = some id)
    (hx : OutExamined files s id n) : OutExamined files t id n := by
  obtain ⟨mtime, hfile, hmtime⟩ := hx
  have hopen : ¬(s.visitOf id = .done ∧ (s.graph.edge id).isPhony ∧ ¬(s.survey.node n).dirty) :=
    fun hand => by simp [h.current] at hand
  rw [if_neg hopen] at hmtime
  have hout := h.out n ((hs.producer_iff n id).mp hn)
  have hsum : summary t.graph t.survey id = summary s.graph s.survey id :=
    summary_congr (by rw [h.graph]) fun m hm =>
      (h.onward hs).node_eq (ne_done_of_inProgress h.current)
        (h.known m (List.mem_append_left _ hm))
  refine ⟨mtime, ⟨by rw [h.graph]; exact hfile.1, by rw [hout]; exact hfile.2⟩, ?_⟩
  rw [hout, hsum, h.graph, hmtime, h.visitOf_eq]
  simp

/-- A file that nothing makes is looked at in a step of its own. -/
private theorem Step.leafExamined (h : Step src s t) (hs : s.graph.Linked) {n : NodeId}
    (hn : (s.graph.node n).producer = none) (hbefore : ¬(s.survey.node n).isStatted)
    (hstat : (t.survey.node n).isStatted) : LeafExamined src.files t n := by
  have hnew : t.survey.node n ≠ s.survey.node n := fun heq => hbefore (heq ▸ hstat)
  have hout : ∀ e, n ∉ (s.graph.edge e).outs := by
    intro e hmem
    rw [(hs.producer_iff n e).mpr hmem] at hn
    cases hn
  cases h with
  | @looks m h hlt =>
    by_cases heq : n = m
    · subst heq
      obtain ⟨mtime, hfile, hnode⟩ := h.node
      refine ⟨by rw [h.graph]; exact hlt, ?_, by rw [hnode]; rfl⟩
      rw [h.graph, hnode]
      exact ⟨hfile, rfl⟩
    · exact absurd (h.other n heq) hnew
  | @opens id h => exact absurd (h.apart n (hout id)) hnew
  | holds h => exact absurd (h.node n) hnew
  | @concludes id h => exact absurd (h.apart n (hout id)) hnew

theorem Step.examined (h : Step src s t) (hs : Orderly src.log s) (hx : Examined src.files s) :
    Examined src.files t := by
  obtain ⟨-, own, htouches⟩ := h.touches hs.linked
  have hproducer := htouches.onward.graph.producer
  refine ⟨fun n hn hstat => ?_, fun n e hn hvisit => ?_, fun n e hn hvisit => ?_⟩
  · rw [hproducer] at hn
    by_cases hbefore : (s.survey.node n).isStatted
    · exact (hx.leaf n hn hbefore).onward htouches.onward hn hbefore
    · exact h.leafExamined hs.linked hn hbefore hstat
  · rw [hproducer] at hn
    have he : some e ≠ own := fun heq => htouches.after e heq.symm hvisit
    rw [htouches.node n e hn he]
    exact hx.fresh n e hn (htouches.visitOf_eq he ▸ hvisit)
  · rw [hproducer] at hn
    cases h with
    | looks h _ =>
      have hbefore : s.visitOf e ≠ .unvisited := by rwa [visitOf, ← h.edge]
      exact (hx.out n e hn hbefore).onward hs h.onward (by simp) hn (by simp) hbefore
    | @opens id h =>
      by_cases heq : e = id
      · subst heq
        exact h.outExamined hs.linked hn (hx.fresh n e hn h.fresh)
      · have hbefore : s.visitOf e ≠ .unvisited := by rwa [visitOf, ← h.other e heq]
        refine (hx.out n e hn hbefore).onward hs (h.onward hs.linked) ?_ hn (by simpa) hbefore
        rintro _ ⟨⟩
        rw [h.fresh]
        simp
    | @holds id h =>
      rw [h.visitOf_eq] at hvisit
      by_cases heq : e = id
      · subst heq
        exact h.outExamined (hx.out n e hn hvisit)
      · exact (hx.out n e hn hvisit).onward hs h.onward (ne_done_of_inProgress h.current) hn
          (by simpa) hvisit
    | @concludes id h =>
      by_cases heq : e = id
      · subst heq
        exact h.outExamined hs.linked hn (hx.out n e hn (by rw [h.current]; simp))
      · have hbefore : s.visitOf e ≠ .unvisited := by rwa [visitOf, ← h.other e heq]
        exact (hx.out n e hn hbefore).onward hs (h.onward hs.linked)
          (ne_done_of_inProgress h.current) hn (by simpa) hbefore

theorem Course.examined (h : Course src s t) (hs : Orderly src.log s)
    (hx : Examined src.files s) : Examined src.files t := by
  induction h with
  | refl => exact hx
  | tail hcourse hstep ih => exact hstep.examined (Course.orderly hcourse hs) ih

end Examined

/-! ## The outcome -/

section Outcome

variable {src : Sources} {s t : Scan}

theorem Examined.leafRules {files : FileView} (hx : Examined files s) {n : NodeId}
    (hn : (s.graph.node n).producer = none) (hknown : s.Known n) :
    LeafRules files s.graph s.survey n := by
  obtain ⟨-, ⟨hfile, -⟩, hdirty⟩ := hx.leaf n hn ((known_of_leaf hn).mp hknown)
  refine ⟨hfile, ?_⟩
  rw [hfile, hdirty, Except.ok.injEq, Option.isNone_iff_eq_none]

theorem Examined.edgeRules (hx : Examined src.files s) (hs : Orderly src.log s) {e : EdgeId}
    (he : s.visitOf e = .done) : EdgeRules src s.graph s.survey e := by
  have hout : ∀ n ∈ (s.graph.edge e).outs, OutExamined src.files s e n := fun n hn =>
    hx.out n e ((hs.linked.producer_iff n e).mpr hn) (by rw [he]; simp)
  have hdirty := (hs.closed e he).dirty
  have hspreads : ∀ n ∈ (s.graph.edge e).outs, HasStaleInput s.graph s.survey e →
      (s.survey.node n).dirty := fun n hn hstale => by
    rw [hdirty n hn, isStale, dirty_summary.mpr hstale, Bool.true_or]
  -- outputs of an edge with a command are as new as their files
  have hcommand : ¬(s.graph.edge e).isPhony → ∀ n ∈ (s.graph.edge e).outs,
      AsFile src.files (s.graph.node n).path (s.survey.node n) (s.survey.node n).mtime := by
    intro hphony n hn
    obtain ⟨mtime, hfile, hmtime⟩ := hout n hn
    rw [if_neg fun hand => hphony hand.2.1] at hmtime
    rwa [hmtime]
  refine ⟨fun m hm n hn => by rw [hdirty m hm, hdirty n hn], fun hphony n hn => ?_,
    fun hphony n hn => ?_, fun hphony n hn => (hcommand hphony n hn).1,
    fun hphony n hn hclean new hnew => ?_, fun hphony n hn hor => ?_⟩
  · rw [hdirty n hn, isStale, hphony, ← dirty_summary]
    simp
  · rw [hdirty n hn, isStale, Bool.or_eq_true, dirty_summary]
    by_cases hstale : HasStaleInput s.graph s.survey e
    · simp [hstale]
    rw [Bool.not_eq_true] at hphony
    rw [hphony, Bool.not_false, Bool.true_and, List.any_eq_true, newest_summary hstale]
    refine or_congr .rfl (exists_congr fun out => and_congr_right fun hmem => ?_)
    obtain ⟨hfile, hexists⟩ := hcommand (by simp [hphony]) out hmem
    exact isOutputStale_iff hfile rfl hexists
  · obtain ⟨mtime, -, hmtime⟩ := hout n hn
    rw [hmtime, if_pos ⟨he, hphony, hclean⟩, newest_summary fun h => hclean (hspreads n hn h), hnew]
    rfl
  · obtain ⟨mtime, hfile, hmtime⟩ := hout n hn
    by_cases hclean : (s.survey.node n).dirty
    · rw [if_neg fun hand => hand.2.2 hclean] at hmtime
      rw [hmtime]
      exact hfile.1
    · rw [hmtime, if_pos ⟨he, hphony, hclean⟩,
        newest_summary fun h => hclean (hspreads n hn h), hor.resolve_left hclean, Option.none_or]
      exact hfile.1

theorem Examined.followsRules (hx : Examined src.files s) (hs : Orderly src.log s) {n : NodeId}
    (hknown : s.Known n) : FollowsRules src s n :=
  ⟨fun hn => hx.leafRules hn hknown, fun _ hn =>
    hx.edgeRules hs ((known_of_producer hn).mp hknown)⟩

/-- Everything that goes into a known file is known. -/
theorem Orderly.known_madeFrom {log : BuildLog} (hs : Orderly log s) {m n : NodeId}
    (hm : s.Known m) (h : Relation.ReflTransGen s.graph.MadeFrom m n) : s.Known n := by
  induction h with
  | refl => exact hm
  | tail _ hstep ih =>
    obtain ⟨e, hprod, hin⟩ := hstep
    exact (hs.closed e ((known_of_producer hprod).mp ih)).known _ hin

/-- Nothing is wrong with what is known of files as long as none was looked at. -/
theorem Examined.of_fresh (files : FileView) (hedges : ∀ e, s.visitOf e = .unvisited)
    (hnodes : ∀ n, ¬(s.survey.node n).isStatted) : Examined files s :=
  ⟨fun n _ hstat => absurd hstat (hnodes n), fun n _ _ _ => hnodes n,
    fun _ e _ he => absurd (hedges e) he⟩

/-- A scan that succeeds finds out about its target, and about all that the target is made from,
what the rules say; the inputs of each edge are those that it had and those that its dependency file
lists. -/
theorem flags_follow_rules {node : NodeId} (hg : s.graph.Linked)
    (hnode : node < s.graph.nodes.size) (hedges : ∀ e, s.visitOf e = .unvisited)
    (hnodes : ∀ n, ¬(s.survey.node n).isStatted) (h : target src node s = .ok () t) {n : NodeId}
    (hn : Relation.ReflTransGen t.graph.MadeFrom node n) :
    FollowsRules src t n ∧ ∀ e, (t.graph.node n).producer = some e →
      ∀ path, path ∈ t.graph.paths (t.graph.edge e).ins ↔ Uses src.files s e path := by
  have hlearns := target_learns hg hnode h
  have hs := Orderly.of_fresh src.log hg hedges
  have horderly := hlearns.course.orderly hs
  have hexamined := hlearns.course.examined hs (.of_fresh src.files hedges hnodes)
  have hknown := horderly.known_madeFrom hlearns.known hn
  refine ⟨hexamined.followsRules horderly hknown, fun e he path => ?_⟩
  have hdone := (known_of_producer he).mp hknown
  exact hlearns.course.mem_paths_ins_iff hg (hedges e) (by rw [hdone]; simp) path

/-- A group of one object file, which is made from a source. -/
def groupGraph : Graph where
  scopes := .initial
  nodes := #[⟨"all", some 0, [], [], false⟩, ⟨"a.o", some 1, [0], [], false⟩,
    ⟨"a.c", none, [1], [], false⟩]
  edges := #[⟨.phony, none, Scopes.root, [0], [], [1], [], [], [], none⟩,
    ⟨.rule 0, none, Scopes.root, [1], [], [2], [], [], [], none⟩]
  rules := #[⟨"cc", ⟨[("depfile", .literal "a.o.d"), ("restat", .literal "1")]⟩⟩]
  pools := #[]
  defaults := []

/-- The source is newer than the object file, and the compiler read a header that is gone. -/
def groupSources : Sources where
  files :=
    { stat := fun path =>
        .ok (if path = "a.c" then some 2 else if path = "a.o" then some 1 else none)
      read := fun _ => .ok (Utf8.encode "a.o: a.c a.h".toList) }
  log := .inMemory

/-- The scan of the group. -/
def groupScan : Scan :=
  match target groupSources 0 (.start groupGraph default) with
  | .ok _ s | .error _ s => s

theorem flags_follow_rules_group :
    FollowsRules groupSources groupScan 0 ∧ FollowsRules groupSources groupScan 3 := by
  have hscan : target groupSources 0 (.start groupGraph default) = .ok () groupScan := by cbv
  have hfresh : ∀ e, (Scan.start groupGraph default).visitOf e = .unvisited :=
    fun e => congrArg EdgeState.visit (Table.get_default e)
  have hnodes : ∀ n, ¬((Scan.start groupGraph default).survey.node n).isStatted := fun n => by
    rw [show (Scan.start groupGraph default).survey.node n = default from Table.get_default n]
    decide
  have hfollows : ∀ n, Relation.ReflTransGen groupScan.graph.MadeFrom 0 n →
      FollowsRules groupSources groupScan n := fun n hn =>
    (flags_follow_rules (by decide) (by decide) hfresh hnodes hscan hn).1
  have hgroup : (groupScan.graph.edge 0).ins = [1] := by cbv
  have hobject : (groupScan.graph.edge 1).ins = [2, 3] := by cbv
  have hheader : Relation.ReflTransGen groupScan.graph.MadeFrom 0 3 :=
    .tail (.single ⟨0, by cbv, hgroup ▸ List.mem_singleton_self 1⟩)
      ⟨1, by cbv, hobject ▸ by simp⟩
  exact ⟨hfollows 0 .refl, hfollows 3 hheader⟩

end Outcome

end Rebuild.Scan
