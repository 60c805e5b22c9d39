import Rebuild.Proofs.Scan.Comparison

/-!
# The order of targets

In which order targets are scanned decides which edge creates the node of a dependency, which edge
is opened first and which file turns out to be in the way. What is known in the end, by paths, does
not depend on it: it is that of two scans either of which is no worse than the other.
-/

namespace Rebuild

attribute [ext] NodeState EdgeState

namespace Scan

variable {src : Sources} {s t t' : Scan} {validating : Bool} {nodes nodes' : List NodeId}
  {e : EdgeId} {m m' : NodeId}

/-- What a scan found out about a path: what is known of the file, and whether it is known only from
dependency files. -/
def finding (t : Scan) (path : String) : Option (NodeState × Bool) :=
  (t.graph.findNode? path).map fun n => (t.survey.node n, (t.graph.node n).fromDepfile)

/-- Two scans have found out the same about all files, by their paths, and about all edges. -/
structure SameFindings (t t' : Scan) : Prop where
  finding : ∀ path, t.finding path = t'.finding path
  edge : ∀ e, t.survey.edge e = t'.survey.edge e
  inputs : ∀ e, t.graph.inputPaths e = t'.graph.inputPaths e

private theorem rel_antisymm {a b : Option Timestamp} (h : Option.Rel (· ≤ ·) a b)
    (h' : Option.Rel (· ≤ ·) b a) : a = b := by
  cases h with
  | none => rfl
  | some hle =>
    cases h' with
    | some hge => rw [le_antisymm hle hge]

/-- A stale output is as new as its file, whether its edge has a command or not. -/
theorem EdgeRules.stat_of_dirty {g : Graph} {survey : Survey} (h : EdgeRules src g survey e)
    (hm : m ∈ (g.edge e).outs) (hdirty : (survey.node m).dirty) :
    src.files.stat (g.node m).path = .ok (survey.node m).mtime := by
  by_cases hphony : (g.edge e).isPhony
  · exact h.kept hphony m hm (.inl hdirty)
  · exact h.time hphony m hm

namespace Compares

variable (h : Compares src src validating s nodes nodes' t t')
include h

/-- Where nothing became worse, each scan can be the first one. -/
theorem swap : Compares src src validating s nodes' nodes t' t :=
  ⟨h.fresh, h.worse, h.second, h.first, fun path => (h.wanted path).symm⟩

private theorem out_dirty_eq (he : t.visitOf e = .done) (hout : m ∈ (s.graph.edge e).outs) :
    (t'.survey.node m).dirty = (t.survey.node m).dirty :=
  Bool.eq_iff_iff.mpr ⟨((h.swap.edge_ages ((h.done_iff e).mpr he)).1 m hout).1,
    ((h.edge_ages he).1 m hout).1⟩

private theorem out_mtime_eq (he : t.visitOf e = .done) (hout : m ∈ (s.graph.edge e).outs) :
    (t'.survey.node m).mtime = (t.survey.node m).mtime := by
  have he' := (h.done_iff e).mpr he
  have hdirty := h.out_dirty_eq he hout
  by_cases hstale : (t.survey.node m).dirty
  · have hrules := (h.first.examined h.fresh).edgeRules h.orderly he
    have hrules' := (h.second.examined h.fresh).edgeRules h.orderly' he'
    have hfile := hrules.stat_of_dirty (h.grows.outs e ▸ hout) hstale
    have hfile' := hrules'.stat_of_dirty (h.grows'.outs e ▸ hout) (hdirty ▸ hstale)
    exact Except.ok.inj (hfile'.symm.trans ((h.stat_out hout).trans hfile))
  · exact rel_antisymm (((h.swap.edge_ages he').1 m hout).2 hstale)
      (((h.edge_ages he).1 m hout).2 (hdirty ▸ hstale))

/-- All that is known of an output of an edge is the same. -/
theorem out_eq (he : t.visitOf e = .done) (hout : m ∈ (s.graph.edge e).outs) :
    t'.survey.node m = t.survey.node m := by
  have he' := (h.done_iff e).mpr he
  have hprod := (h.orderly.linked.producer_iff m e).mpr (h.grows.outs e ▸ hout)
  have hprod' := (h.orderly'.linked.producer_iff m e).mpr (h.grows'.outs e ▸ hout)
  obtain ⟨mtime, hfile, -⟩ := (h.first.examined h.fresh).out m e hprod (by rw [he]; simp)
  obtain ⟨mtime', hfile', -⟩ := (h.second.examined h.fresh).out m e hprod' (by rw [he']; simp)
  obtain rfl : mtime' = mtime :=
    Except.ok.inj (hfile'.1.symm.trans ((h.stat_out hout).trans hfile.1))
  rw [NodeState.ext_iff]
  exact ⟨hfile'.2.trans hfile.2.symm, h.out_mtime_eq he hout, h.out_dirty_eq he hout⟩

/-- So is what is known of a file that nothing makes. -/
theorem leaf_eq (hpath : (t'.graph.node m').path = (t.graph.node m).path)
    (hm : (t.graph.node m).producer = none) (hknown : t.Known m)
    (hm' : (t'.graph.node m').producer = none) (hknown' : t'.Known m') :
    t'.survey.node m' = t.survey.node m := by
  obtain ⟨-, ⟨hfile, hexists⟩, hdirty⟩ :=
    (h.first.examined h.fresh).leaf m hm ((known_of_leaf hm).mp hknown)
  obtain ⟨-, ⟨hfile', hexists'⟩, hdirty'⟩ :=
    (h.second.examined h.fresh).leaf m' hm' ((known_of_leaf hm').mp hknown')
  rw [hpath] at hfile'
  have hmtime := Except.ok.inj (hfile'.symm.trans hfile)
  rw [NodeState.ext_iff, hexists', hdirty', hmtime]
  exact ⟨hexists.symm, rfl, hdirty.symm⟩

theorem edge_eq (e : EdgeId) : t'.survey.edge e = t.survey.edge e := by
  by_cases he : t.visitOf e = .done
  · have he' := (h.done_iff e).mpr he
    rw [EdgeState.ext_iff]
    refine ⟨he'.trans he.symm, Bool.eq_iff_iff.mpr ⟨h.outputReady_of, h.swap.outputReady_of⟩, ?_⟩
    rw [h.first.depsLoaded h.fresh he, h.second.depsLoaded h.fresh he']
  · rw [(h.first.edge_kept h.fresh he).2,
      (h.second.edge_kept h.fresh fun he' => he ((h.done_iff e).mp he')).2]

theorem all_inputPaths_eq (e : EdgeId) : t'.graph.inputPaths e = t.graph.inputPaths e := by
  by_cases he : t.visitOf e = .done
  · exact h.inputPaths_eq he
  · rw [h.grows.inputPaths_eq h.fresh.linked (h.first.edge_kept h.fresh he).1,
      h.grows'.inputPaths_eq h.fresh.linked
        (h.second.edge_kept h.fresh fun he' => he ((h.done_iff e).mp he')).1]

/-- What one scan found out about a path the other one found out too. -/
theorem finding_of_some {path : String} {found : NodeState × Bool}
    (hfound : t.finding path = some found) : t'.finding path = some found := by
  obtain ⟨m, hfind, rfl⟩ := Option.map_eq_some_iff.mp hfound
  obtain ⟨hm, rfl⟩ := Graph.findNode?_eq_some hfind
  obtain ⟨m', hm', hpath, hmarked, hpairs⟩ := h.exists_pair hm
  have hsame : t'.survey.node m' = t.survey.node m := by
    cases hpairs with
    | untouched hkept hkept' => rw [hkept, hkept']
    | leaf hprod hknown hprod' hknown' => exact h.leaf_eq hpath hprod hknown hprod' hknown'
    | out hout heq he => rw [heq, h.out_eq he hout]
  rw [Scan.finding, h.orderly'.linked.findNode?_eq_some_iff.mpr ⟨hm', hpath⟩, Option.map_some,
    hsame, hmarked]

theorem sameFindings : SameFindings t t' where
  finding _ := Option.ext fun _ => ⟨h.finding_of_some, h.swap.finding_of_some⟩
  edge e := (h.edge_eq e).symm
  inputs e := (h.all_inputPaths_eq e).symm

end Compares

/-- Two lists of the same targets are scanned with all validations. Either both scans fail, or both
succeed with the same findings about all files and edges, and with the same validations. -/
theorem order_of_targets (src : Sources) (hs : s.Fresh) (hlt : ∀ n ∈ nodes, n < s.graph.nodes.size)
    (hsame : ∀ n, n ∈ nodes ↔ n ∈ nodes') :
    match all src nodes s, all src nodes' s with
    | .ok found t, .ok found' t' => SameFindings t t' ∧ ∀ v, v ∈ found ↔ v ∈ found'
    | .error _ _, .error _ _ => True
    | _, _ => False := by
  have hsub : nodes ⊆ nodes' := fun n => (hsame n).mp
  have hsub' : nodes' ⊆ nodes := fun n => (hsame n).mpr
  have hall := all_completes src hs hlt
  have hall' := all_completes src hs fun n hn => hlt n (hsub' hn)
  cases hscan : all src nodes s with
  | ok found t =>
    rw [hscan] at hall
    obtain ⟨hfirst, -, hfound⟩ := hall
    cases hscan' : all src nodes' s with
    | ok found' t' =>
      rw [hscan'] at hall'
      obtain ⟨hsecond, -, hfound'⟩ := hall'
      have hcompares : Compares src src true s nodes nodes' t t' :=
        ⟨hs, .refl _ _, hfirst, hsecond, fun _ => ⟨(·.mono hsub), (·.mono hsub')⟩⟩
      refine ⟨hcompares.sameFindings, fun v => ?_⟩
      rw [hfound, hfound', hsame]
      exact and_congr_right fun _ => exists_congr fun e =>
        and_congr_left fun _ => ⟨(·.mono hsub), (·.mono hsub')⟩
    | error err' t' =>
      rw [hscan'] at hall'
      exact hfirst.not_blocked hs (hall'.mono hsub')
  | error err t =>
    rw [hscan] at hall
    cases hscan' : all src nodes' s with
    | ok found' t' =>
      rw [hscan'] at hall'
      exact hall'.1.not_blocked hs (hall.mono hsub)
    | error err' t' => trivial

/-- Two object files, each made from a source and from what its dependency file lists. -/
def pairGraph : Graph where
  scopes := .initial
  nodes := #[⟨"a.o", some 0, [], [], false⟩, ⟨"b.o", some 1, [], [], false⟩,
    ⟨"a.c", none, [0], [], false⟩, ⟨"b.c", none, [1], [], false⟩]
  edges := #[⟨.rule 0, none, Scopes.root, [0], [], [2], [], [], [], none⟩,
    ⟨.rule 1, none, Scopes.root, [1], [], [3], [], [], [], none⟩]
  rules := #[⟨"cc_a", ⟨[("depfile", .literal "a.o.d")]⟩⟩,
    ⟨"cc_b", ⟨[("depfile", .literal "b.o.d")]⟩⟩]
  pools := #[]
  defaults := []

/-- Each object file was made from a header of its own. -/
def pairSources : Sources where
  files :=
    { stat := fun _ => .ok (some 1)
      read := fun path =>
        .ok (Utf8.encode (if path = "a.o.d" then "a.o: a.h" else "b.o: b.h").toList) }
  log := .inMemory

/-- The headers are new nodes, which come in another order in each scan. -/
theorem order_of_targets_pair : ∃ t t',
    all pairSources [0, 1] (.start pairGraph default) = .ok [] t ∧
    all pairSources [1, 0, 1] (.start pairGraph default) = .ok [] t' ∧
    (t.graph.node 4).path = "a.h" ∧ (t'.graph.node 4).path = "b.h" ∧ SameFindings t t' := by
  have hsame := order_of_targets pairSources (.start (g := pairGraph) (by decide)) (by decide)
    (show ∀ n, n ∈ [0, 1] ↔ n ∈ [1, 0, 1] by simp [or_comm])
  obtain ⟨t, hscan, hpath⟩ : ∃ t, all pairSources [0, 1] (.start pairGraph default) = .ok [] t ∧
      (t.graph.node 4).path = "a.h" := ⟨_, by cbv, by cbv⟩
  obtain ⟨t', hscan', hpath'⟩ : ∃ t, all pairSources [1, 0, 1] (.start pairGraph default) =
      .ok [] t ∧ (t.graph.node 4).path = "b.h" := ⟨_, by cbv, by cbv⟩
  rw [hscan, hscan'] at hsame
  exact ⟨t, t', hscan, hscan', hpath, hpath', hsame.1⟩

end Scan

end Rebuild
