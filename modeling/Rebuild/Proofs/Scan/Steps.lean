import Rebuild.Proofs.Scan.Settled
import Rebuild.Proofs.Sequence

/-!
# The steps of scanning an edge

What each step of a scan that succeeds leaves behind. An edge that is being scanned has its outputs
looked at, its dependency file loaded and its inputs scanned, and then its state is concluded.
-/

namespace Rebuild

theorem NodeState.isStatted_withStat (n : NodeState) (mtime : Option Timestamp) :
    (n.withStat mtime).isStatted := by
  cases mtime <;> rfl

namespace Scan

variable {files : FileView} {log : BuildLog} {s t : Scan}

/-! ## Looking at files -/

theorem statOnce_ok {n : NodeId} {looked : Bool} (h : statOnce files n s = .ok looked t) :
    (looked = false ∧ (s.survey.node n).isStatted ∧ t = s) ∨
      (looked = true ∧ ¬(s.survey.node n).isStatted ∧ ∃ mtime,
        files.stat (s.graph.node n).path = .ok mtime ∧
        t = { s with survey := s.survey.modifyNode n (·.withStat mtime) }) := by
  unfold statOnce at h
  rw [Sequence.get_bind] at h
  by_cases hstat : (s.survey.node n).isStatted
  · rw [if_pos hstat] at h
    obtain ⟨rfl, rfl⟩ := Sequence.pure_eq_ok.mp h
    exact .inl ⟨rfl, hstat, rfl⟩
  · rw [if_neg hstat] at h
    cases hfile : files.stat (s.graph.node n).path with
    | error fault =>
      rw [hfile] at h
      exact absurd h Sequence.throw_ne_ok
    | ok mtime =>
      rw [hfile] at h
      obtain ⟨rfl, rfl⟩ := Sequence.pure_eq_ok.mp h
      exact .inr ⟨rfl, hstat, mtime, rfl, rfl⟩

theorem statOnce_error {n : NodeId} {e : Error} (h : statOnce files n s = .error e t) :
    ∃ fault, e = .cannotStat (s.graph.node n).path fault ∧
      files.stat (s.graph.node n).path = .error fault := by
  unfold statOnce at h
  rw [Sequence.get_bind] at h
  by_cases hstat : (s.survey.node n).isStatted
  · rw [if_pos hstat] at h
    exact absurd h Sequence.pure_ne_error
  · rw [if_neg hstat] at h
    cases hfile : files.stat (s.graph.node n).path with
    | error fault =>
      rw [hfile] at h
      obtain ⟨rfl, -⟩ := Sequence.throw_eq_error.mp h
      exact ⟨fault, rfl, rfl⟩
    | ok mtime =>
      rw [hfile] at h
      exact absurd h Sequence.pure_ne_error

/-- A file of the graph that was looked at, unless that was done before. -/
def StattedAs (files : FileView) (path : String) (n m : NodeState) : Prop :=
  if n.isStatted then m = n else ∃ mtime, files.stat path = .ok mtime ∧ m = n.withStat mtime

theorem StattedAs.isStatted {path : String} {n m : NodeState} (h : StattedAs files path n m) :
    m.isStatted := by
  unfold StattedAs at h
  split at h
  · next hstat => exact h ▸ hstat
  · obtain ⟨mtime, -, rfl⟩ := h
    exact NodeState.isStatted_withStat n mtime

theorem statOnce_statted {n : NodeId} {looked : Bool} (h : statOnce files n s = .ok looked t) :
    StattedAs files (s.graph.node n).path (s.survey.node n) (t.survey.node n) := by
  unfold StattedAs
  rcases statOnce_ok h with ⟨-, hstat, rfl⟩ | ⟨-, hstat, mtime, hfile, rfl⟩
  · rw [if_pos hstat]
  · rw [if_neg hstat]
    exact ⟨mtime, hfile, (Survey.node_modifyNode ..).trans (if_pos rfl)⟩

theorem statAll_ok {ids : List NodeId} (h : statAll files ids s = .ok () t) :
    t.graph = s.graph ∧ t.survey.edges = s.survey.edges ∧
      (∀ n ∉ ids, t.survey.node n = s.survey.node n) ∧
      ∀ n ∈ ids, StattedAs files (s.graph.node n).path (s.survey.node n) (t.survey.node n) := by
  induction ids generalizing s with
  | nil =>
    obtain ⟨-, rfl⟩ := Sequence.pure_eq_ok.mp h
    exact ⟨rfl, rfl, fun _ _ => rfl, by simp⟩
  | cons id ids ih =>
    obtain ⟨looked, u, hfirst, hrest⟩ := Sequence.bind_eq_ok.mp h
    obtain ⟨hgraph, hedges, hnode, hlooked⟩ := ih hrest
    have hid := statOnce_statted hfirst
    have hself : t.survey.node id = u.survey.node id := by
      by_cases hmem : id ∈ ids
      · have hagain := hlooked id hmem
        rwa [StattedAs, if_pos hid.isStatted] at hagain
      · exact hnode id hmem
    have hothers : u.graph = s.graph ∧ u.survey.edges = s.survey.edges ∧
        ∀ n, n ≠ id → u.survey.node n = s.survey.node n := by
      rcases statOnce_ok hfirst with ⟨-, -, rfl⟩ | ⟨-, -, mtime, -, rfl⟩
      · exact ⟨rfl, rfl, fun _ _ => rfl⟩
      · exact ⟨rfl, rfl, fun n hn => (Survey.node_modifyNode ..).trans (if_neg (Ne.symm hn))⟩
    obtain ⟨hgraph₁, hedges₁, hnode₁⟩ := hothers
    rw [hgraph₁] at hlooked
    refine ⟨hgraph.trans hgraph₁, hedges.trans hedges₁, fun n hn => ?_, fun n hn => ?_⟩
    · rw [List.mem_cons, not_or] at hn
      rw [hnode n hn.2, hnode₁ n hn.1]
    · by_cases hne : n = id
      · subst hne
        rwa [hself]
      · rw [← hnode₁ n hne]
        exact hlooked n ((List.mem_cons.mp hn).resolve_left hne)

theorem statAll_error {ids : List NodeId} {e : Error} (h : statAll files ids s = .error e t) :
    ∃ n ∈ ids, ∃ fault, e = .cannotStat (s.graph.node n).path fault ∧
      files.stat (s.graph.node n).path = .error fault := by
  induction ids generalizing s with
  | nil => exact absurd h Sequence.pure_ne_error
  | cons id ids ih =>
    rcases Sequence.bind_eq_error.mp h with h | ⟨looked, u, hfirst, h⟩
    · exact ⟨id, List.mem_cons_self, statOnce_error h⟩
    · obtain ⟨n, hn, fault, hcause⟩ := ih h
      have hgraph : u.graph = s.graph := by
        rcases statOnce_ok hfirst with ⟨-, -, rfl⟩ | ⟨-, -, mtime, -, rfl⟩ <;> rfl
      exact ⟨n, List.mem_cons_of_mem id hn, fault, hgraph ▸ hcause⟩

theorem statAll_validations {ids : List NodeId} (h : statAll files ids s = .ok () t) :
    t.validations = s.validations := by
  induction ids generalizing s with
  | nil =>
    obtain ⟨-, rfl⟩ := Sequence.pure_eq_ok.mp h
    rfl
  | cons id ids ih =>
    obtain ⟨looked, u, hfirst, hrest⟩ := Sequence.bind_eq_ok.mp h
    rw [ih hrest]
    rcases statOnce_ok hfirst with ⟨-, -, rfl⟩ | ⟨-, -, mtime, -, rfl⟩ <;> rfl

theorem scanLeaf_ok {n : NodeId} (h : scanLeaf files n s = .ok () t) :
    ((s.survey.node n).isStatted ∧ t = s) ∨
      (¬(s.survey.node n).isStatted ∧ t.graph = s.graph ∧ t.survey.edges = s.survey.edges ∧
        (∀ m, m ≠ n → t.survey.node m = s.survey.node m) ∧
        ∃ mtime, files.stat (s.graph.node n).path = .ok mtime ∧
          t.survey.node n = { (s.survey.node n).withStat mtime with dirty := mtime.isNone }) := by
  obtain ⟨looked, u, hfirst, hrest⟩ := Sequence.bind_eq_ok.mp h
  rcases statOnce_ok hfirst with ⟨rfl, hstat, rfl⟩ | ⟨rfl, hstat, mtime, hfile, rfl⟩
  · obtain ⟨-, rfl⟩ := Sequence.pure_eq_ok.mp hrest
    exact .inl ⟨hstat, rfl⟩
  · obtain rfl : _ = t := (EStateM.Result.ok.inj hrest).2
    refine .inr ⟨hstat, rfl, rfl, fun m hm => ?_, mtime, hfile, ?_⟩
    · simp only [Survey.node_modifyNode, Ne.symm hm, ↓reduceIte]
    · simp only [Survey.node_modifyNode, ↓reduceIte]
      cases mtime <;> rfl

theorem scanLeaf_error {n : NodeId} {e : Error} (h : scanLeaf files n s = .error e t) :
    ∃ fault, e = .cannotStat (s.graph.node n).path fault ∧
      files.stat (s.graph.node n).path = .error fault := by
  rcases Sequence.bind_eq_error.mp h with h | ⟨looked, u, -, h⟩
  · exact statOnce_error h
  · cases looked <;> cases h

/-! ## Loading the dependency file -/

/-- The graph after the dependency file of an edge was tried. -/
def loaded (files : FileView) (g : Graph) (id : EdgeId) : Graph :=
  match Depfile.load files g id with
  | .ok graph => graph
  | .error _ => g

theorem loaded_adds {g : Graph} (h : g.Linked) (id : EdgeId) :
    Depfile.Adds id g (loaded files g id) := by
  unfold loaded
  cases hload : Depfile.load files g id with
  | ok graph => exact Depfile.load_adds h hload
  | error e => exact .refl h id

/-- The inputs afterwards are those from before and what the dependency file lists. -/
theorem mem_paths_loaded {g : Graph} (h : g.Linked) (id : EdgeId) (path : String) :
    path ∈ (loaded files g id).paths ((loaded files g id).edge id).ins ↔
      path ∈ g.paths (g.edge id).ins ∨ Depfile.Lists files g id path := by
  unfold loaded
  cases hload : Depfile.load files g id with
  | ok graph => exact Depfile.mem_paths_load h hload path
  | error e => exact ⟨.inl, fun hor => hor.resolve_right (Depfile.not_lists_of_error hload path)⟩

theorem loadDepsOnce_ok {id : EdgeId} (h : loadDepsOnce files id s = .ok () t) :
    t.graph = (if (s.survey.edge id).depsLoaded then s.graph else loaded files s.graph id) ∧
      t.survey.nodes = s.survey.nodes ∧ t.validations = s.validations ∧
      ∀ e, t.survey.edge e =
        if id = e then { s.survey.edge id with depsLoaded := true } else s.survey.edge e := by
  unfold loadDepsOnce at h
  rw [Sequence.get_bind] at h
  by_cases hdeps : (s.survey.edge id).depsLoaded
  · rw [if_pos hdeps] at h
    obtain ⟨-, rfl⟩ := Sequence.pure_eq_ok.mp h
    refine ⟨by rw [if_pos hdeps], rfl, rfl, fun e => ?_⟩
    split
    · next heq => subst heq; rw [← hdeps]
    · rfl
  · rw [if_neg hdeps] at h
    have hedge := Survey.edge_modifyEdge s.survey id
    obtain ⟨_, u, hmark, hload⟩ := Sequence.bind_eq_ok.mp h
    obtain rfl : _ = u := (EStateM.Result.ok.inj hmark).2
    rw [if_neg hdeps, loaded]
    simp only [loadDeps] at hload
    cases hfile : Depfile.load files s.graph id with
    | ok graph =>
      rw [hfile] at hload
      obtain rfl : _ = t := (EStateM.Result.ok.inj hload).2
      exact ⟨rfl, rfl, rfl, fun e => hedge e _⟩
    | error fault =>
      rw [hfile] at hload
      obtain rfl : _ = t := (EStateM.Result.ok.inj hload).2
      exact ⟨rfl, rfl, rfl, fun e => hedge e _⟩

/-- A dependency file that cannot be loaded does not end the scan. -/
theorem loadDepsOnce_ne_error {id : EdgeId} {e : Error} : loadDepsOnce files id s ≠ .error e t := by
  unfold loadDepsOnce
  rw [Sequence.get_bind]
  split
  · exact Sequence.pure_ne_error
  · intro h
    rcases Sequence.bind_eq_error.mp h with h | ⟨_, u, -, h⟩
    · cases h
    · cases hload : loadDeps files id u <;> simp [hload] at h

/-! ## Concluding -/

/-- Judging an edge changes its outputs only if they become as new as its newest input. -/
theorem judge_ok {id : EdgeId} {sum : InputSummary} {dirty : Bool}
    (h : judge log id sum s = .ok dirty t) :
    dirty = (sum.dirty || (!(s.graph.edge id).isPhony &&
        (s.graph.edge id).outs.any (isOutputStale log s.graph s.survey id sum.newest))) ∧
      t.graph = s.graph ∧ t.survey.edges = s.survey.edges ∧ t.validations = s.validations ∧
      ∀ n, t.survey.node n =
        if !sum.dirty ∧ (s.graph.edge id).isPhony ∧ n ∈ (s.graph.edge id).outs then
          { s.survey.node n with mtime := sum.newest.or (s.survey.node n).mtime }
        else s.survey.node n := by
  unfold judge at h
  by_cases hdirty : sum.dirty
  · rw [if_pos hdirty] at h
    obtain ⟨rfl, rfl⟩ := Sequence.pure_eq_ok.mp h
    simp [hdirty]
  rw [if_neg hdirty, Sequence.get_bind] at h
  dsimp only at h
  by_cases hphony : (s.graph.edge id).isPhony
  · rw [if_pos hphony] at h
    cases hnewest : sum.newest with
    | some time =>
      rw [if_pos (by rw [hnewest]; rfl)] at h
      obtain ⟨rfl, rfl⟩ := EStateM.Result.ok.inj h
      have hedges : ∀ (ids : List NodeId) (survey : Survey),
          (survey.modifyNodes ids ({ · with mtime := sum.newest })).edges = survey.edges := by
        intro ids
        induction ids with
        | nil => exact fun _ => rfl
        | cons id ids ih => exact fun survey => (ih _).trans rfl
      refine ⟨by simp [hdirty, hphony], rfl, hedges _ _, rfl, fun n => ?_⟩
      refine (Survey.node_modifyNodes s.survey _ (f := ({ · with mtime := sum.newest }))
        (fun _ => rfl) n).trans ?_
      simp [hdirty, hphony, hnewest]
    | none =>
      rw [if_neg (by rw [hnewest]; simp)] at h
      obtain ⟨rfl, rfl⟩ := EStateM.Result.ok.inj h
      simp [hdirty, hphony]
  · rw [if_neg hphony] at h
    obtain ⟨rfl, rfl⟩ := EStateM.Result.ok.inj h
    simp [hdirty, hphony]

theorem judge_ne_error {id : EdgeId} {sum : InputSummary} {e : Error} :
    judge log id sum s ≠ .error e t := by
  unfold judge
  split
  · exact Sequence.pure_ne_error
  rw [Sequence.get_bind]
  dsimp only
  split
  · split <;> exact (nomatch ·)
  · exact Sequence.pure_ne_error

theorem conclude_ok {id : EdgeId} {dirty : Bool} (h : conclude id dirty s = .ok () t) :
    t.graph = s.graph ∧ t.validations = s.validations ∧
      (∀ n, t.survey.node n =
        if n ∈ (s.graph.edge id).outs then { s.survey.node n with dirty := dirty }
        else s.survey.node n) ∧
      ∀ e, t.survey.edge e = if id = e then
        { s.survey.edge id with
          visit := .done
          outputReady := (s.survey.edge id).outputReady &&
            !(dirty && !((s.graph.edge id).isPhony && (s.graph.edge id).ins.isEmpty)) }
        else s.survey.edge e := by
  obtain rfl : _ = t := (EStateM.Result.ok.inj h).2
  refine ⟨rfl, rfl, fun n => ?_, fun e => ?_⟩
  · exact Survey.node_modifyNodes s.survey _ (f := ({ · with dirty := dirty })) (fun _ => rfl) n
  · rw [Survey.edge_modifyEdge, Survey.edge_modifyNodes, Survey.edge_modifyNodes]

end Scan

end Rebuild
