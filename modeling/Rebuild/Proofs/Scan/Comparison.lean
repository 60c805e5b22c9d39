import Rebuild.Proofs.Scan.Additions
import Rebuild.Proofs.Scan.Readiness

/-!
# Comparing two scans of one graph

Two scans of a graph want the same files, but may come to them in another order and may find sources
in another state. They are compared file by file, by paths, along what files are made from: if the
sources that the second scan finds are as bad as in the first one or worse, then so is what it finds
out about everything that is made from them.
-/

namespace Rebuild

/-- What is known of a file in another scan is as bad or worse: it is stale if it was, and otherwise
as new or newer. -/
def NodeState.Ages (n n' : NodeState) : Prop :=
  (n.dirty → n'.dirty) ∧ (¬n'.dirty → Option.Rel (· ≤ ·) n.mtime n'.mtime)

namespace Scan

open Relation (ReflTransGen TransGen)

variable {src src' : Sources} {s t t' : Scan} {g : Graph} {validating : Bool}
  {nodes nodes' : List NodeId} {e d : EdgeId} {m m' : NodeId}

/-! ## Sources that get worse -/

/-- The sources of a graph are in the same state or a worse one: files that exist existed before and
were no newer, while outputs, dependency files and the log are the same. -/
structure Worsens (g : Graph) (src src' : Sources) : Prop where
  log : src'.log = src.log
  time : ∀ path new, src'.files.stat path = .ok (some new) →
    ∃ old ≤ new, src.files.stat path = .ok (some old)
  outs : ∀ e, ∀ out ∈ (g.edge e).outs,
    src'.files.stat (g.node out).path = src.files.stat (g.node out).path
  deps : ∀ e < g.edges.size, g.edgeVar e "depfile" ≠ "" →
    src'.files.read (Path.canonical (g.edgeVar e "depfile")) =
      src.files.read (Path.canonical (g.edgeVar e "depfile"))

namespace Worsens

theorem refl (g : Graph) (src : Sources) : Worsens g src src :=
  ⟨rfl, fun _ new h => ⟨new, le_refl new, h⟩, fun _ _ _ => rfl, fun _ _ _ => rfl⟩

theorem inputsOf_eq (h : Worsens s.graph src src') (e : EdgeId) :
    inputsOf src'.files s e = inputsOf src.files s e := by
  have hlisted : Depfile.listed src'.files s.graph e = Depfile.listed src.files s.graph e := by
    by_cases hlt : e < s.graph.edges.size
    · exact Depfile.listed_congr (h.deps e hlt)
    · have hnone : ∀ files, Depfile.listed files s.graph e = [] := fun files =>
        List.eq_nil_iff_forall_not_mem.mpr fun path hpath => hlt (Depfile.lt_of_listed hpath)
      rw [hnone, hnone]
  rw [inputsOf, inputsOf, hlisted]

theorem uses_iff (h : Worsens s.graph src src') (e : EdgeId) (path : String) :
    Uses src'.files s e path ↔ Uses src.files s e path := by
  rw [← mem_inputsOf, ← mem_inputsOf, h.inputsOf_eq]

theorem needs_iff (h : Worsens s.graph src src') (e d : EdgeId) :
    Needs src'.files s e d ↔ Needs src.files s e d := by
  simp only [Needs, h.uses_iff]

theorem wanted_iff (h : Worsens s.graph src src') (path : String) :
    Wanted src'.files s validating nodes path ↔ Wanted src.files s validating nodes path :=
  ⟨fun hwanted => hwanted.congr fun e path => (h.uses_iff e path).mp,
    fun hwanted => hwanted.congr fun e path => (h.uses_iff e path).mpr⟩

/-- An output that is out of date stays so if the newest input gets newer. -/
theorem outOfDate {g₁ g₂ : Graph} (h : Worsens g src src') (h₁ : g.Grows g₁) (h₂ : g.Grows g₂)
    (hg : g.Linked) {out : NodeId} (hout : out ∈ (g.edge e).outs)
    {newest newest' : Option Timestamp} (hnewest : Option.Rel (· ≤ ·) newest newest')
    (hold : OutOfDate src g₁ e newest out) : OutOfDate src' g₂ e newest' out := by
  have hlt := Graph.lt_of_producer ((hg.producer_iff out e).mpr hout)
  have hlater : ∀ new, newest = some new → ∃ new', newest' = some new' ∧ new ≤ new' := by
    rintro new rfl
    cases hnewest with
    | some hle => exact ⟨_, rfl, hle⟩
  unfold OutOfDate at hold ⊢
  rw [h₁.path out hlt, h₁.edgeFlag, h₁.edgeFlag, h₁.command] at hold
  rw [h₂.path out hlt, h₂.edgeFlag, h₂.edgeFlag, h₂.command, h.outs e out hout, h.log]
  rcases hold with hmissing | ⟨hrestat, new, old, hnew, hfile, hlt⟩ | hcommand |
    ⟨new, entry, hnew, hentry, hlt⟩
  · exact .inl hmissing
  · obtain ⟨new', hnew', hle⟩ := hlater new hnew
    exact .inr (.inl ⟨hrestat, new', old, hnew', hfile, lt_of_lt_of_le hlt hle⟩)
  · exact .inr (.inr (.inl hcommand))
  · obtain ⟨new', hnew', hle⟩ := hlater new hnew
    exact .inr (.inr (.inr
      ⟨new', entry, hnew', hentry, UInt64.lt_of_lt_of_le hlt (Timestamp.toLog_mono hle)⟩))

end Worsens

/-! ## Edges and nodes that one scan came to, and others -/

section Explores

variable (h : Explores src validating s nodes t) (hs : s.Fresh)
include h hs

theorem Explores.depsLoaded (he : t.visitOf e = .done) : (t.survey.edge e).depsLoaded :=
  h.course.depsLoaded (hs.edges e) (by rw [show (s.adopt t).visitOf e = _ from he]; simp)

theorem Explores.inputPaths_eq (he : t.visitOf e = .done) :
    t.graph.inputPaths e = inputsOf src.files s e :=
  h.course.inputPaths_eq hs.linked (hs.edges e)
    (by rw [show (s.adopt t).visitOf e = _ from he]; simp)

theorem Explores.edge_kept (hnot : t.visitOf e ≠ .done) :
    t.graph.edge e = s.graph.edge e ∧ t.survey.edge e = s.survey.edge e :=
  h.course.edge_kept hs.linked (by_contra fun hnew => hnot (h.done_of_visited hnew))

/-- A node that is not known is as it was. -/
theorem Explores.node_kept (hnot : ¬t.Known m) : t.survey.node m = s.survey.node m := by
  have hgrows := h.grows hs
  cases hprod : (t.graph.node m).producer with
  | none =>
    exact h.course.leaf_kept hs.linked ((hgrows.producer m).symm.trans hprod)
      fun hstat => hnot ((known_of_leaf hprod).mpr hstat)
  | some e =>
    refine h.course.out_kept hs.linked ((hgrows.producer m).symm.trans hprod) ?_
    by_contra hnew
    exact hnot ((known_of_producer hprod).mpr (h.done_of_visited hnew))

theorem Explores.marks : Marks s t := by
  obtain ⟨hkept, hbrought⟩ := h.course.marks hs.linked
  exact ⟨hkept, hbrought⟩

end Explores

/-! ## Times -/

private theorem rel_refl (time : Option Timestamp) : Option.Rel (· ≤ ·) time time := by
  cases time with
  | none => exact .none
  | some time => exact .some (le_refl time)

/-- If inputs are as new or newer, one by one, then so is the newest. -/
theorem newestInput_le {g g' : Graph} {survey survey' : Survey}
    (hthere : ∀ m ∈ (g.edge e).nonOrderOnlyIns, ∃ m' ∈ (g'.edge e).nonOrderOnlyIns,
      Option.Rel (· ≤ ·) (survey.node m).mtime (survey'.node m').mtime)
    (hback : ∀ m' ∈ (g'.edge e).nonOrderOnlyIns, ∃ m ∈ (g.edge e).nonOrderOnlyIns,
      Option.Rel (· ≤ ·) (survey.node m).mtime (survey'.node m').mtime) :
    Option.Rel (· ≤ ·) (newestInput g survey e) (newestInput g' survey' e) := by
  cases hold : newestInput g survey e with
  | none =>
    cases hnew : newestInput g' survey' e with
    | none => exact .none
    | some new =>
      obtain ⟨m', hm', htime'⟩ := exists_of_newestInput hnew
      obtain ⟨m, hm, hrel⟩ := hback m' hm'
      rw [htime'] at hrel
      generalize htime : (survey.node m).mtime = time at hrel
      cases hrel with
      | some hle =>
        obtain ⟨_, hsome, -⟩ := le_newestInput hm htime
        cases hold.symm.trans hsome
  | some old =>
    obtain ⟨m, hm, htime⟩ := exists_of_newestInput hold
    obtain ⟨m', hm', hrel⟩ := hthere m hm
    rw [htime] at hrel
    generalize htime' : (survey'.node m').mtime = time' at hrel
    cases hrel with
    | some hle =>
      obtain ⟨new, hnew, hlast⟩ := le_newestInput hm' htime'
      rw [hnew]
      exact .some (le_trans hle hlast)

/-! ## The same file in two scans -/

/-- Two scans that come to the same files, the sources being in the same state or a worse one for
the second scan. -/
structure Compares (src src' : Sources) (validating : Bool) (s : Scan) (nodes nodes' : List NodeId)
    (t t' : Scan) : Prop where
  fresh : s.Fresh
  worse : Worsens s.graph src src'
  first : Completes src validating s nodes t
  second : Completes src' validating s nodes' t'
  wanted : ∀ path, Wanted src.files s validating nodes path ↔
    Wanted src.files s validating nodes' path

/-- What is known of the outputs of an edge is as bad in a second scan or worse. -/
def OutsAge (s t t' : Scan) (e : EdgeId) : Prop :=
  ∀ out ∈ (s.graph.edge e).outs, (t.survey.node out).Ages (t'.survey.node out)

/-- How the file of a node in one scan and of a node in the other fared: neither scan looked at it,
or both did and nothing makes it, or an edge makes it that both are done with. -/
inductive Pairs (s t t' : Scan) (m m' : NodeId) : Prop
  | untouched (h : t.survey.node m = s.survey.node m) (h' : t'.survey.node m' = s.survey.node m)
  | leaf (hm : (t.graph.node m).producer = none) (hknown : t.Known m)
    (hm' : (t'.graph.node m').producer = none) (hknown' : t'.Known m')
  | out {e : EdgeId} (hout : m ∈ (s.graph.edge e).outs) (hsame : m' = m)
    (he : t.visitOf e = .done)

namespace Compares

variable (h : Compares src src' validating s nodes nodes' t t')
include h

theorem done_iff (e : EdgeId) : t'.visitOf e = .done ↔ t.visitOf e = .done := by
  rw [h.first.done_iff h.fresh, h.second.done_iff h.fresh]
  simp only [Wants, h.worse.wanted_iff, h.wanted]

/-- The inputs of an edge that was come to are the same by their paths. -/
theorem inputPaths_eq (he : t.visitOf e = .done) :
    t'.graph.inputPaths e = t.graph.inputPaths e := by
  rw [h.first.inputPaths_eq h.fresh he, h.second.inputPaths_eq h.fresh ((h.done_iff e).mpr he),
    h.worse.inputsOf_eq]

theorem grows : s.graph.Grows t.graph :=
  h.first.grows h.fresh

theorem grows' : s.graph.Grows t'.graph :=
  h.second.grows h.fresh

theorem orderly : Orderly src.log t :=
  h.first.orderly h.fresh

theorem orderly' : Orderly src'.log t' :=
  h.second.orderly h.fresh

/-- A file that an edge makes is the same node in both scans. -/
theorem eq_of_producer (hm' : m' < t'.graph.nodes.size)
    (hpath : (t'.graph.node m').path = (t.graph.node m).path)
    (hprod : (t.graph.node m).producer = some d) : m' = m :=
  h.grows.eq_of_path h.grows' h.orderly'.linked
    (Graph.lt_of_producer ((h.grows.producer m).symm.trans hprod)) hm' hpath

/-- Who makes a file is the same in both scans. -/
theorem producer_eq (hm : m < t.graph.nodes.size) (hm' : m' < t'.graph.nodes.size)
    (hpath : (t'.graph.node m').path = (t.graph.node m).path) :
    (t'.graph.node m').producer = (t.graph.node m).producer := by
  cases hprod : (t.graph.node m).producer with
  | some d =>
    rw [h.eq_of_producer hm' hpath hprod, h.grows'.producer, ← h.grows.producer, hprod]
  | none =>
    cases hprod' : (t'.graph.node m').producer with
    | none => rfl
    | some d =>
      rw [h.grows'.producer] at hprod'
      have hsame := h.grows'.eq_of_path h.grows h.orderly.linked (Graph.lt_of_producer hprod') hm
        hpath.symm
      rw [hsame, h.grows.producer, hprod'] at hprod
      cases hprod

/-- A file that nothing makes is as bad or worse if its file is. -/
theorem leaf_ages (hpath : (t'.graph.node m').path = (t.graph.node m).path)
    (hm : (t.graph.node m).producer = none) (hknown : t.Known m)
    (hm' : (t'.graph.node m').producer = none) (hknown' : t'.Known m') :
    (t.survey.node m).Ages (t'.survey.node m') := by
  have hrules := (h.first.examined h.fresh).leafRules hm hknown
  have hrules' := (h.second.examined h.fresh).leafRules hm' hknown'
  have htime := hrules'.time
  rw [hpath] at htime
  constructor
  · intro hdirty
    rw [hrules'.dirty, hpath, htime]
    cases hnew : (t'.survey.node m').mtime with
    | none => rfl
    | some new =>
      obtain ⟨old, -, hold⟩ := h.worse.time _ new (htime.trans (congrArg _ hnew))
      cases hold.symm.trans (hrules.dirty.mp hdirty)
  · intro hclean
    cases hnew : (t'.survey.node m').mtime with
    | none => exact absurd (hrules'.dirty.mpr (by rw [hpath, htime, hnew])) hclean
    | some new =>
      obtain ⟨old, hle, hold⟩ := h.worse.time _ new (htime.trans (congrArg _ hnew))
      rw [Except.ok.inj (hrules.time.symm.trans hold)]
      exact .some hle

/-! ### Edges -/

theorem paths_ins_eq (he : t.visitOf e = .done) :
    t'.graph.paths (t'.graph.edge e).ins = t.graph.paths (t.graph.edge e).ins := by
  rw [← Graph.all_inputPaths, ← Graph.all_inputPaths, h.inputPaths_eq he]

theorem paths_nonOrderOnlyIns_eq (he : t.visitOf e = .done) :
    t'.graph.paths (t'.graph.edge e).nonOrderOnlyIns =
      t.graph.paths (t.graph.edge e).nonOrderOnlyIns := by
  rw [Graph.paths_nonOrderOnlyIns, Graph.paths_nonOrderOnlyIns, h.inputPaths_eq he]

/-- What feeds an edge in one scan feeds it in the other. -/
theorem feeds (he : t.visitOf e = .done) (hfeeds : t.graph.Feeds d e) : t'.graph.Feeds d e := by
  obtain ⟨m, hm, hprod⟩ := hfeeds
  obtain ⟨m', hm', hpath⟩ := Graph.exists_of_paths_eq (h.paths_ins_eq he) hm
  have hlt' := h.orderly'.linked.lt_of_in hm'
  exact ⟨m', hm', (h.producer_eq (h.orderly.linked.lt_of_in hm) hlt' hpath).trans hprod⟩

/-- The file of an output is the same for both scans. -/
theorem stat_out {out : NodeId} (hout : out ∈ (s.graph.edge e).outs) :
    src'.files.stat (t'.graph.node out).path = src.files.stat (t.graph.node out).path := by
  have hlt := Graph.lt_of_producer ((h.fresh.linked.producer_iff out e).mpr hout)
  rw [h.grows'.path out hlt, h.grows.path out hlt, h.worse.outs e out hout]

theorem out_rel {out : NodeId} (hout : out ∈ (s.graph.edge e).outs)
    (htime : src.files.stat (t.graph.node out).path = .ok (t.survey.node out).mtime)
    (htime' : src'.files.stat (t'.graph.node out).path = .ok (t'.survey.node out).mtime) :
    Option.Rel (· ≤ ·) (t.survey.node out).mtime (t'.survey.node out).mtime := by
  rw [h.stat_out hout, htime, Except.ok.injEq] at htime'
  rw [htime']
  exact rel_refl _

section Fed

variable (he : t.visitOf e = .done) (hfed : ∀ d, t.graph.Feeds d e → OutsAge s t t' d)
include he hfed

/-- Inputs are as bad or worse, provided that this holds for what makes them. -/
theorem input_ages (hm : m ∈ (t.graph.edge e).ins) (hm' : m' ∈ (t'.graph.edge e).ins)
    (hpath : (t'.graph.node m').path = (t.graph.node m).path) :
    (t.survey.node m).Ages (t'.survey.node m') := by
  have hlt := h.orderly.linked.lt_of_in hm
  have hlt' := h.orderly'.linked.lt_of_in hm'
  have hsame := h.producer_eq hlt hlt' hpath
  cases hprod : (t.graph.node m).producer with
  | none =>
    exact h.leaf_ages hpath hprod ((h.orderly.closed e he).known m hm) (hsame.trans hprod)
      ((h.orderly'.closed e ((h.done_iff e).mpr he)).known m' hm')
  | some d =>
    rw [h.eq_of_producer hlt' hpath hprod]
    refine hfed d ⟨m, hm, hprod⟩ m ((h.fresh.linked.producer_iff m d).mp ?_)
    rw [← h.grows.producer, hprod]

theorem nonOrderOnly_ages (hm : m ∈ (t.graph.edge e).nonOrderOnlyIns)
    (hm' : m' ∈ (t'.graph.edge e).nonOrderOnlyIns)
    (hpath : (t'.graph.node m').path = (t.graph.node m).path) :
    (t.survey.node m).Ages (t'.survey.node m') :=
  h.input_ages he hfed (List.mem_append_left _ hm) (List.mem_append_left _ hm') hpath

theorem hasStaleInput (hstale : HasStaleInput t.graph t.survey e) :
    HasStaleInput t'.graph t'.survey e := by
  obtain ⟨m, hm, hdirty⟩ := hstale
  obtain ⟨m', hm', hpath⟩ := Graph.exists_of_paths_eq (h.paths_nonOrderOnlyIns_eq he) hm
  exact ⟨m', hm', (h.nonOrderOnly_ages he hfed hm hm' hpath).1 hdirty⟩

theorem newestInput_rel (hclean : ¬HasStaleInput t'.graph t'.survey e) :
    Option.Rel (· ≤ ·) (newestInput t.graph t.survey e) (newestInput t'.graph t'.survey e) := by
  have hpaths := h.paths_nonOrderOnlyIns_eq he
  refine newestInput_le (fun m hm => ?_) fun m' hm' => ?_
  · obtain ⟨m', hm', hpath⟩ := Graph.exists_of_paths_eq hpaths hm
    exact ⟨m', hm', (h.nonOrderOnly_ages he hfed hm hm' hpath).2 fun hd => hclean ⟨m', hm', hd⟩⟩
  · obtain ⟨m, hm, hpath⟩ := Graph.exists_of_paths_eq hpaths.symm hm'
    exact ⟨m, hm, (h.nonOrderOnly_ages he hfed hm hm' hpath.symm).2 fun hd => hclean ⟨m', hm', hd⟩⟩

/-- The name of a group is as new as the newest member, or as a file of that name. -/
theorem phony_ages (hphony : (s.graph.edge e).isPhony) : OutsAge s t t' e := by
  intro out hout
  have hin : out ∈ (t.graph.edge e).outs := h.grows.outs e ▸ hout
  have hin' : out ∈ (t'.graph.edge e).outs := h.grows'.outs e ▸ hout
  have hp : (t.graph.edge e).isPhony := h.grows.isPhony e ▸ hphony
  have hp' : (t'.graph.edge e).isPhony := h.grows'.isPhony e ▸ hphony
  have hrules := (h.first.examined h.fresh).edgeRules h.orderly he
  have hrules' := (h.second.examined h.fresh).edgeRules h.orderly' ((h.done_iff e).mpr he)
  have hdirty : (t.survey.node out).dirty → (t'.survey.node out).dirty := fun hd =>
    (hrules'.phony hp' out hin').mpr (h.hasStaleInput he hfed ((hrules.phony hp out hin).mp hd))
  refine ⟨hdirty, fun hclean => ?_⟩
  have hrel := h.newestInput_rel he hfed fun hd => hclean ((hrules'.phony hp' out hin').mpr hd)
  generalize hold : newestInput t.graph t.survey e = old at hrel
  generalize hnew : newestInput t'.graph t'.survey e = new at hrel
  cases hrel with
  | none =>
    exact h.out_rel hout (hrules.kept hp out hin (.inr hold))
      (hrules'.kept hp' out hin' (.inr hnew))
  | some hle =>
    rw [hrules.adopted hp out hin (fun hd => hclean (hdirty hd)) _ hold,
      hrules'.adopted hp' out hin' hclean _ hnew]
    exact .some hle

/-- Outputs of an edge with a command are as new as their files, and stale if an input is or an
output is out of date. -/
theorem command_ages (hphony : ¬(s.graph.edge e).isPhony) : OutsAge s t t' e := by
  intro out hout
  have hin : out ∈ (t.graph.edge e).outs := h.grows.outs e ▸ hout
  have hin' : out ∈ (t'.graph.edge e).outs := h.grows'.outs e ▸ hout
  have hp : ¬(t.graph.edge e).isPhony := h.grows.isPhony e ▸ hphony
  have hp' : ¬(t'.graph.edge e).isPhony := h.grows'.isPhony e ▸ hphony
  have hrules := (h.first.examined h.fresh).edgeRules h.orderly he
  have hrules' := (h.second.examined h.fresh).edgeRules h.orderly' ((h.done_iff e).mpr he)
  refine ⟨fun hdirty => (hrules'.command hp' out hin').mpr ?_, fun _ =>
    h.out_rel hout (hrules.time hp out hin) (hrules'.time hp' out hin')⟩
  by_cases hclean : HasStaleInput t'.graph t'.survey e
  · exact .inl hclean
  · rcases (hrules.command hp out hin).mp hdirty with hd | ⟨other, hother, hold⟩
    · exact .inl (h.hasStaleInput he hfed hd)
    · rw [h.grows.outs] at hother
      exact .inr ⟨other, h.grows'.outs e ▸ hother, h.worse.outOfDate h.grows h.grows'
        h.fresh.linked hother (h.newestInput_rel he hfed hclean) hold⟩

/-- What an edge with inputs that are as bad or worse makes is as bad or worse. -/
theorem outsAge_of_feeds : OutsAge s t t' e := by
  by_cases hphony : (s.graph.edge e).isPhony
  · exact h.phony_ages he hfed hphony
  · exact h.command_ages he hfed hphony

end Fed

/-- If the sources get worse, so does what is known of the outputs of all edges that scans come to;
and edges that are ready were ready. -/
theorem edge_ages (he : t.visitOf e = .done) :
    OutsAge s t t' e ∧ ((t'.survey.edge e).outputReady → (t.survey.edge e).outputReady) := by
  have hfounded := (h.orderly.closed e he).founded
  induction hfounded with
  | intro e _ ih =>
    have hclosed := h.orderly.closed e he
    have hclosed' := h.orderly'.closed e ((h.done_iff e).mpr he)
    have hfed : ∀ d, t.graph.Feeds d e → _ := fun d hd =>
      ih d hd (h.orderly.done_of_feeds he (.single hd))
    have houts := h.outsAge_of_feeds he fun d hd => (hfed d hd).1
    refine ⟨houts, fun hready => ?_⟩
    rw [hclosed'.outputReady_iff] at hready
    refine hclosed.outputReady_iff.mpr ⟨fun d hd => (hfed d hd).2 (hready.1 d (h.feeds he hd)), ?_⟩
    obtain ⟨out, hout, -⟩ := h.first.edge e he
    rw [← hclosed.dirty out (h.grows.outs e ▸ hout)]
    intro hdirty
    refine hready.2 ?_
    rw [← hclosed'.dirty out (h.grows'.outs e ▸ hout)]
    exact (houts out hout).1 hdirty

/-! ### All files and edges -/

theorem known_iff (hlt : m < s.graph.nodes.size) : t'.Known m ↔ t.Known m := by
  rw [h.second.known_iff h.fresh hlt, h.first.known_iff h.fresh hlt, h.worse.wanted_iff, h.wanted]

private theorem pair_of_lt (hlt : m < s.graph.nodes.size) : Pairs s t t' m m := by
  by_cases hknown : t.Known m
  · have hknown' := (h.known_iff hlt).mpr hknown
    cases hprod : (t.graph.node m).producer with
    | none =>
      refine .leaf hprod hknown ?_ hknown'
      rw [h.grows'.producer, ← h.grows.producer, hprod]
    | some e =>
      have hdone := (known_of_producer hprod).mp hknown
      rw [h.grows.producer] at hprod
      exact .out ((h.fresh.linked.producer_iff m e).mp hprod) rfl hdone
  · exact .untouched (h.first.node_kept h.fresh hknown)
      (h.second.node_kept h.fresh fun hknown' => hknown ((h.known_iff hlt).mp hknown'))

/-- Every file of one scan is one of the other. -/
theorem exists_pair (hm : m < t.graph.nodes.size) :
    ∃ m', m' < t'.graph.nodes.size ∧ (t'.graph.node m').path = (t.graph.node m).path ∧
      (t'.graph.node m').fromDepfile = (t.graph.node m).fromDepfile ∧ Pairs s t t' m m' := by
  have hmarks := h.first.marks h.fresh
  have hmarks' := h.second.marks h.fresh
  by_cases hlt : m < s.graph.nodes.size
  · exact ⟨m, Nat.lt_of_lt_of_le hlt h.grows'.nodes_size,
      (h.grows'.path m hlt).trans (h.grows.path m hlt).symm,
      (hmarks'.kept m hlt).trans (hmarks.kept m hlt).symm, h.pair_of_lt hlt⟩
  -- a new node is an input of an edge, and has its counterpart among the inputs there
  obtain ⟨hmarked, e, he, hin⟩ := hmarks.brought m (Nat.le_of_not_lt hlt) hm
  have hdone := h.first.done_of_visited he
  obtain ⟨m', hin', hpath⟩ := Graph.exists_of_paths_eq (h.paths_ins_eq hdone) hin
  have hm' := h.orderly'.linked.lt_of_in hin'
  have hlt' : ¬m' < s.graph.nodes.size := fun hlt' =>
    hlt (h.grows'.eq_of_path h.grows h.orderly.linked hlt' hm hpath.symm ▸ hlt')
  have hprod : (t.graph.node m).producer = none := by
    rw [h.grows.producer, Graph.node_of_size_le (Nat.le_of_not_lt hlt)]
    rfl
  refine ⟨m', hm', hpath, ?_, .leaf hprod ((h.orderly.closed e hdone).known m hin) ?_
    ((h.orderly'.closed e ((h.done_iff e).mpr hdone)).known m' hin')⟩
  · rw [hmarked, (hmarks'.brought m' (Nat.le_of_not_lt hlt') hm').1]
  · rw [h.producer_eq hm hm' hpath, hprod]

/-- If the sources get worse, so does what is known of any file. -/
theorem exists_ages (hm : m < t.graph.nodes.size) :
    ∃ m', m' < t'.graph.nodes.size ∧ (t'.graph.node m').path = (t.graph.node m).path ∧
      (t.survey.node m).Ages (t'.survey.node m') := by
  obtain ⟨m', hm', hpath, -, hpairs⟩ := h.exists_pair hm
  refine ⟨m', hm', hpath, ?_⟩
  cases hpairs with
  | untouched hkept hkept' =>
    rw [hkept, hkept']
    exact ⟨id, fun _ => rel_refl _⟩
  | leaf hprod hknown hprod' hknown' => exact h.leaf_ages hpath hprod hknown hprod' hknown'
  | out hout hsame he => exact hsame ▸ (h.edge_ages he).1 m hout

/-- Whatever is ready although the sources got worse was ready before. -/
theorem outputReady_of (hready : (t'.survey.edge e).outputReady) :
    (t.survey.edge e).outputReady := by
  by_cases he : t.visitOf e = .done
  · exact (h.edge_ages he).2 hready
  · rw [(h.first.edge_kept h.fresh he).2]
    rwa [(h.second.edge_kept h.fresh fun he' => he ((h.done_iff e).mp he')).2] at hready

end Compares

end Scan

end Rebuild
