import Rebuild.Proofs.Scan.Rules

/-!
# What scans have found out

Whatever was scanned, one target after the other or all at once with their validations: what is
known of files in the end agrees with the files, and what is known of the edges that the scans are
done with follows the rules of staleness.
-/

namespace Rebuild

/-- The log keeps the order of times. -/
theorem Timestamp.toLog_mono {a b : Timestamp} (h : a ≤ b) : a.toLog ≤ b.toLog := by
  have hlt : ∀ t : Timestamp, min t.toNat (UInt64.size - 1) < UInt64.size := fun t =>
    lt_of_le_of_lt (Nat.min_le_right _ _) (by decide)
  rw [UInt64.le_iff_toNat_le, toLog, toLog, UInt64.toNat_ofNat_of_lt' (hlt a),
    UInt64.toNat_ofNat_of_lt' (hlt b)]
  have hnat := Int.toNat_le_toNat h
  omega

namespace Scan

variable {src src' : Sources} {s t : Scan}

/-! ## What a scan keeps -/

/-- Validations and faults that a scan has met make no difference to what it knows. -/
theorem Examined.congr {files : FileView} (hx : Examined files s) (hgraph : t.graph = s.graph)
    (hsurvey : t.survey = s.survey) : Examined files t := by
  obtain ⟨g, survey, validations, faults⟩ := s
  obtain ⟨g', survey', validations', faults'⟩ := t
  cases hgraph
  cases hsurvey
  refine ⟨fun n hn hstat => ?_, hx.fresh, hx.out⟩
  obtain ⟨hlt, hfile, hdirty⟩ := hx.leaf n hn hstat
  exact ⟨hlt, hfile, hdirty⟩

theorem target_examined {node : NodeId} (hs : Sound src s) (hx : Examined src.files s)
    (hlt : node < s.graph.nodes.size) (h : target src node s = .ok () t) :
    Examined src.files t :=
  (target_learns hs.linked hlt h).course.examined hs.orderly hx

theorem targets_examined {nodes : List NodeId} (hs : Sound src s) (hx : Examined src.files s)
    (hlt : ∀ n ∈ nodes, n < s.graph.nodes.size) (h : targets src nodes s = .ok () t) :
    Examined src.files t := by
  induction nodes generalizing s with
  | nil =>
    obtain ⟨-, rfl⟩ := Sequence.pure_eq_ok.mp h
    exact hx
  | cons n nodes ih =>
    obtain ⟨_, u, hfirst, hrest⟩ := Sequence.bind_eq_ok.mp h
    obtain ⟨hu, honward, -⟩ := target_ok hs hfirst
    refine ih hu (target_examined hs hx (hlt n List.mem_cons_self) hfirst) (fun m hm => ?_) hrest
    exact Nat.lt_of_lt_of_le (hlt m (List.mem_cons_of_mem n hm)) honward.graph.nodes_size

/-- Validations that were found before stay found. -/
theorem subset_of_validate {known found found' : List NodeId} {n : Nat}
    (h : validate src known n found s = .ok found' t) : found ⊆ found' := by
  induction n generalizing found s with
  | zero =>
    obtain ⟨rfl, -⟩ := Sequence.pure_eq_ok.mp h
    exact List.Subset.refl _
  | succ n ih =>
    obtain ⟨node, u, -, h⟩ := Sequence.bind_eq_ok.mp h
    cases node with
    | none =>
      obtain ⟨rfl, -⟩ := Sequence.pure_eq_ok.mp h
      exact List.Subset.refl _
    | some node =>
      dsimp only at h
      split at h
      · exact ih h
      · obtain ⟨_, v, -, h⟩ := Sequence.bind_eq_ok.mp h
        exact (List.append_subset.mp (ih h)).1

/-- Validations are scanned like targets. -/
theorem validate_examined {known found found' : List NodeId} {n : Nat} (hs : Sound src s)
    (hx : Examined src.files s) (hlt : ∀ m ∈ found', m < s.graph.nodes.size)
    (h : validate src known n found s = .ok found' t) : Examined src.files t := by
  induction n generalizing found s with
  | zero =>
    obtain ⟨-, rfl⟩ := Sequence.pure_eq_ok.mp h
    exact hx
  | succ n ih =>
    obtain ⟨node, u, hpop, h⟩ := Sequence.bind_eq_ok.mp h
    obtain ⟨hgraph, hsurvey⟩ := popValidation_ok hpop
    have hu := (hs.congr hgraph hsurvey).1
    have hxu := hx.congr hgraph hsurvey
    rw [← hgraph] at hlt
    cases node with
    | none =>
      obtain ⟨-, rfl⟩ := Sequence.pure_eq_ok.mp h
      exact hxu
    | some node =>
      dsimp only at h
      split at h
      · exact ih hu hxu hlt h
      · obtain ⟨_, v, htarget, h⟩ := Sequence.bind_eq_ok.mp h
        obtain ⟨hv, honward, -⟩ := target_ok hu htarget
        have hnode : node ∈ found' :=
          (List.append_subset.mp (subset_of_validate h)).2 (List.mem_singleton_self node)
        refine ih hv (target_examined hu hxu (hlt node hnode) htarget) (fun m hm => ?_) h
        exact Nat.lt_of_lt_of_le (hlt m hm) honward.graph.nodes_size

theorem all_examined {nodes validations : List NodeId} (hs : Sound src s)
    (hx : Examined src.files s) (hlt : ∀ n ∈ nodes ++ validations, n < s.graph.nodes.size)
    (h : all src nodes s = .ok validations t) : Examined src.files t := by
  obtain ⟨_, u, htargets, h⟩ := Sequence.bind_eq_ok.mp h
  obtain ⟨hu, honward, -⟩ := targets_ok hs htargets
  rw [Sequence.get_bind] at h
  refine validate_examined hu ?_ (fun m hm => ?_) h
  · exact targets_examined hs hx (fun n hn => hlt n (List.mem_append_left _ hn)) htargets
  · exact Nat.lt_of_lt_of_le (hlt m (List.mem_append_right _ hm)) honward.graph.nodes_size

/-! ## The newest input -/

section Newest

variable {g : Graph} {survey : Survey} {e : EdgeId}

theorem exists_of_newestInput {new : Timestamp} (h : newestInput g survey e = some new) :
    ∃ n ∈ (g.edge e).nonOrderOnlyIns, (survey.node n).mtime = some new :=
  List.mem_filterMap.mp (List.max?_eq_some_iff.mp h).1

theorem le_newestInput {n : NodeId} {time : Timestamp} (hn : n ∈ (g.edge e).nonOrderOnlyIns)
    (htime : (survey.node n).mtime = some time) :
    ∃ new, newestInput g survey e = some new ∧ time ≤ new := by
  have hmem : time ∈ (g.edge e).nonOrderOnlyIns.filterMap fun n => (survey.node n).mtime :=
    List.mem_filterMap.mpr ⟨n, hn, htime⟩
  cases hnew : newestInput g survey e with
  | none =>
    rw [List.max?_eq_none_iff.mp hnew] at hmem
    cases hmem
  | some new => exact ⟨new, rfl, (List.max?_eq_some_iff.mp hnew).2 time hmem⟩

/-- The name of a group that is not stale is as new in one scan as in another, if what it stands for
is, and so is the file of that name. -/
theorem group_mtime_eq {g g' : Graph} {survey survey' : Survey} {p : EdgeId} {n : NodeId}
    (hrules : EdgeRules src g survey p) (hrules' : EdgeRules src' g' survey' p)
    (hphony : (g.edge p).isPhony) (hphony' : (g'.edge p).isPhony) (hn : n ∈ (g.edge p).outs)
    (hn' : n ∈ (g'.edge p).outs) (hclean : ¬(survey.node n).dirty)
    (hclean' : ¬(survey'.node n).dirty)
    (hfile : src'.files.stat (g'.node n).path = src.files.stat (g.node n).path)
    (hnewest : newestInput g' survey' p = newestInput g survey p) :
    (survey'.node n).mtime = (survey.node n).mtime := by
  cases hnew : newestInput g survey p with
  | none =>
    have hkept := hrules.kept hphony n hn (.inr hnew)
    have hkept' := hrules'.kept hphony' n hn' (.inr (hnewest.trans hnew))
    rw [hfile, hkept, Except.ok.injEq] at hkept'
    exact hkept'.symm
  | some new =>
    rw [hrules.adopted hphony n hn hclean new hnew,
      hrules'.adopted hphony' n hn' hclean' new (hnewest.trans hnew)]

end Newest

/-! ## Scans one after the other -/

namespace Scanned

variable {g : Graph} {scanned : List NodeId}

theorem grows (hg : g.Linked) (h : Scanned src g scanned s) : g.Grows s.graph :=
  (h.onward hg).graph

/-- What scans of nodes of a graph know of files agrees with the files. -/
theorem examined (hg : g.Linked) (hlt : ∀ n ∈ scanned, n < g.nodes.size)
    (h : Scanned src g scanned s) : Examined src.files s := by
  induction h with
  | start =>
    refine .of_fresh src.files (fun e => ?_) fun n => ?_
    · exact congrArg EdgeState.visit (Table.get_default e)
    · rw [show (Scan.start g default).survey.node n = default from Table.get_default n]
      decide
  | @target nodes s node t h htarget ih =>
    have hsize := (h.grows hg).nodes_size
    have hx := ih fun n hn => hlt n (List.mem_append_left _ hn)
    refine target_examined (h.sound hg).1 hx ?_ htarget
    exact Nat.lt_of_lt_of_le (hlt node (by simp)) hsize
  | @all nodes s more validations t h hall ih =>
    have hsize := (h.grows hg).nodes_size
    have hx := ih fun n hn => hlt n (List.mem_append_left _ hn)
    refine all_examined (h.sound hg).1 hx (fun n hn => ?_) hall
    exact Nat.lt_of_lt_of_le (hlt n (List.mem_append_right _ hn)) hsize
  | resume _ ih => exact (ih hlt).congr rfl rfl

/-- Edges that scans are done with follow the rules of staleness. -/
theorem edgeRules (hg : g.Linked) (hlt : ∀ n ∈ scanned, n < g.nodes.size)
    (h : Scanned src g scanned s) {e : EdgeId} (he : s.visitOf e = .done) :
    EdgeRules src s.graph s.survey e :=
  (h.examined hg hlt).edgeRules (h.sound hg).1.orderly he

/-- So do files that scans know and that nothing makes. -/
theorem leafRules (hg : g.Linked) (hlt : ∀ n ∈ scanned, n < g.nodes.size)
    (h : Scanned src g scanned s) {n : NodeId} (hn : (s.graph.node n).producer = none)
    (hknown : s.Known n) : LeafRules src.files s.graph s.survey n :=
  (h.examined hg hlt).leafRules hn hknown

end Scanned

end Scan

end Rebuild
