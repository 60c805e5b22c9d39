import Rebuild.Proofs.Scan.Readiness

/-!
# Validations that come with targets

A scan of targets takes the validations of the edges that it comes to, then those of the edges that
these lead to, and so on. However they repeat and wherever an edge was met before, in the end the
targets and the validations found are closed: they are the least set that holds the targets and the
validations of all edges to which something in it leads.
-/

namespace Rebuild

open Relation (ReflTransGen)

namespace Graph

variable {g g' : Graph} {targets : List NodeId} {m v : NodeId} {e : EdgeId}

/-- An edge is found from a file, going inwards through inputs of any kind. -/
def Leads (g : Graph) (m : NodeId) (e : EdgeId) : Prop :=
  ∃ n, ReflTransGen g.MadeFrom m n ∧ (g.node n).producer = some e

/-- A set holds targets, and the validations of all edges to which something in it leads. -/
structure Encloses (g : Graph) (targets : List NodeId) (files : Set NodeId) : Prop where
  targets : ∀ n ∈ targets, n ∈ files
  validations : ∀ m ∈ files, ∀ e, g.Leads m e → ∀ v ∈ (g.edge e).validations, v ∈ files

/-- Targets call for themselves, and for the validations of all edges to which something leads that
they call for. -/
inductive CallsFor (g : Graph) (targets : List NodeId) : NodeId → Prop
  | target {n : NodeId} : n ∈ targets → CallsFor g targets n
  | validation {m v : NodeId} {e : EdgeId} : CallsFor g targets m → g.Leads m e →
    v ∈ (g.edge e).validations → CallsFor g targets v

theorem CallsFor.mem {files : Set NodeId} (h : g.CallsFor targets v)
    (hfiles : g.Encloses targets files) : v ∈ files := by
  induction h with
  | target hn => exact hfiles.targets _ hn
  | validation _ hleads hv ih => exact hfiles.validations _ ih _ hleads _ hv

theorem Leads.mono (h : g.Leads m e) (hgrows : g.Grows g') : g'.Leads m e := by
  obtain ⟨n, hmade, hprod⟩ := h
  exact ⟨n, hmade.lift (fun k => k) fun _ _ => hgrows.madeFrom, (hgrows.producer n).trans hprod⟩

/-- Inputs that are added do not take anything away. -/
theorem CallsFor.mono (h : g.CallsFor targets v) (hgrows : g.Grows g') :
    g'.CallsFor targets v := by
  induction h with
  | target hn => exact .target hn
  | validation _ hleads hv ih =>
    exact .validation ih (hleads.mono hgrows) (hgrows.validations _ ▸ hv)

end Graph

namespace Scan

variable {src : Sources} {s t u : Scan} {nodes found found' : List NodeId} {v : NodeId}

/-- A scan has come only to edges to which something leads that its targets call for. -/
structure Pursues (src : Sources) (s : Scan) (nodes : List NodeId) (t : Scan) : Prop where
  course : Course src s (s.adopt t)
  between : ∀ e, t.visitOf e ≠ .inProgress
  led : ∀ e, t.visitOf e = .done → ∃ m, t.graph.CallsFor nodes m ∧ t.graph.Leads m e

namespace Pursues

theorem refl (src : Sources) (hedges : ∀ e, s.visitOf e = .unvisited) (nodes : List NodeId) :
    Pursues src s nodes s where
  course := .refl
  between e := by rw [hedges]; simp
  led e he := by rw [hedges] at he; cases he

theorem congr (h : Pursues src s nodes t) (hgraph : u.graph = t.graph)
    (hsurvey : u.survey = t.survey) : Pursues src s nodes u := by
  obtain ⟨g, survey, _, _⟩ := t
  obtain ⟨g', survey', _, _⟩ := u
  cases hgraph
  cases hsurvey
  exact ⟨h.course, h.between, h.led⟩

theorem orderly (h : Pursues src s nodes t) (hs : s.graph.Linked)
    (hedges : ∀ e, s.visitOf e = .unvisited) : Orderly src.log t :=
  (h.course.orderly (.of_fresh src.log hs hedges)).congr rfl rfl

theorem grows (h : Pursues src s nodes t) (hs : s.graph.Linked) : s.graph.Grows t.graph :=
  h.course.grows hs

/-- Validations that are due are called for. -/
theorem callsFor_of_due (h : Pursues src s nodes t) (hs : s.graph.Linked) (hv : s.Due t v) :
    t.graph.CallsFor nodes v := by
  obtain ⟨e, he, hmem⟩ := hv
  obtain ⟨m, hm, hleads⟩ := h.led e he
  exact .validation hm hleads ((h.grows hs).validations e ▸ hmem)

/-- Scanning something that is called for. -/
theorem target (h : Pursues src s nodes t) (hs : s.graph.Linked)
    (hawaits : Awaits s nodes found t) {n : NodeId} (hlt : n < s.graph.nodes.size)
    (hn : t.graph.CallsFor nodes n) (hscan : Scan.target src n t = .ok () u) :
    Pursues src s nodes u ∧ Awaits s nodes found u ∧ Onward none t u ∧ u.Known n ∧
      u.outstanding = t.outstanding := by
  have ht : t.graph.Linked := h.course.linked hs
  have hlt' : n < t.graph.nodes.size := Nat.lt_of_lt_of_le hlt (h.grows hs).nodes_size
  obtain ⟨hcourse, honward, hknown⟩ := target_learns ht hlt' hscan
  have hcovers := target_covers ht hlt' hscan
  have hbetween := honward.between h.between
  refine ⟨⟨h.course.adopt_trans hcourse, hbetween, fun e he => ?_⟩,
    hawaits.target (h.grows hs) honward hcovers.outstanding h.between hbetween, honward, hknown,
    hcovers.outstanding⟩
  by_cases hbefore : t.visitOf e = .unvisited
  · exact ⟨n, hn.mono honward.graph, hcovers.edge e hbefore (by rw [he]; simp)⟩
  · obtain ⟨m, hm, hleads⟩ := h.led e (done_of_visited h.between hbefore)
    exact ⟨m, hm.mono honward.graph, hleads.mono honward.graph⟩

/-- Scanning targets, one after the other. -/
theorem targets (h : Pursues src s nodes t) (hs : s.graph.Linked)
    (hawaits : Awaits s nodes found t) {more : List NodeId}
    (hmore : ∀ n ∈ more, n ∈ nodes ∧ n < s.graph.nodes.size)
    (hscan : Scan.targets src more t = .ok () u) :
    Pursues src s nodes u ∧ Awaits s nodes found u ∧ Onward none t u ∧ ∀ n ∈ more, u.Known n := by
  induction more generalizing t with
  | nil =>
    obtain ⟨-, rfl⟩ := Sequence.pure_eq_ok.mp hscan
    exact ⟨h, hawaits, .refl none t, by simp⟩
  | cons n more ih =>
    obtain ⟨_, v, hfirst, hrest⟩ := Sequence.bind_eq_ok.mp hscan
    obtain ⟨hmem, hlt⟩ := hmore n List.mem_cons_self
    obtain ⟨hv, hawaits, honward, hknown, -⟩ := h.target hs hawaits hlt (.target hmem) hfirst
    obtain ⟨hu, hawaits, hlater, hall⟩ :=
      ih hv hawaits (fun m hm => hmore m (List.mem_cons_of_mem n hm)) hrest
    refine ⟨hu, hawaits, honward.trans hlater, fun m hm => ?_⟩
    rcases List.mem_cons.mp hm with rfl | hm
    · exact hlater.known_none hknown
    · exact hall m hm

/-- Scanning validations until none is left. -/
theorem validate (h : Pursues src s nodes t) (hs : s.graph.Linked)
    (hawaits : Awaits s nodes found t) (hknown : ∀ v ∈ nodes ++ found, t.Known v) {n : Nat}
    (hsteps : t.outstanding.card < n) (hscan : Scan.validate src nodes n found t = .ok found' u) :
    Pursues src s nodes u ∧ Awaits s nodes found' u ∧ u.validations = [] ∧
      ∀ v ∈ nodes ++ found', u.Known v := by
  induction n generalizing found t with
  | zero => exact absurd hsteps (Nat.not_lt_zero _)
  | succ n ih =>
    obtain ⟨node, v, hpop⟩ := t.popValidation_total
    cases node with
    | none =>
      obtain ⟨rfl, hnone⟩ := popValidation_eq_none hpop
      rw [validate_none hpop] at hscan
      cases hscan
      exact ⟨h, hawaits, hnone, hknown⟩
    | some node =>
      obtain ⟨hgraph, hsurvey, hvalidations⟩ := popValidation_eq_some hpop
      have hmem : node ∈ t.validations := by rw [hvalidations]; simp
      have hv := h.congr hgraph hsurvey
      have honward : Onward none t v := .of_same none hgraph hsurvey
      have hfewer : v.outstanding.card < n := by
        rw [card_outstanding_pop hpop] at hsteps
        exact Nat.lt_of_succ_lt_succ hsteps
      rw [validate_some hpop] at hscan
      by_cases hold : node ∈ nodes ++ found
      · rw [if_pos hold] at hscan
        exact ih hv (hawaits.skip hpop hold) (fun m hm => honward.known_none (hknown m hm)) hfewer
          hscan
      · rw [if_neg hold] at hscan
        obtain ⟨_, w, hfirst, hrest⟩ := Sequence.bind_eq_ok.mp hscan
        have hcalled : v.graph.CallsFor nodes node := hgraph ▸
          h.callsFor_of_due hs (hawaits.due node (List.mem_append_left _ hmem))
        obtain ⟨hw, hawaits, hlater, hlast, hsame⟩ :=
          hv.target hs (hawaits.take hpop hold) (hawaits.lt_of_mem hs hmem) hcalled hfirst
        refine ih hw hawaits (fun m hm => ?_) (hsame ▸ hfewer) hrest
        rw [← List.append_assoc] at hm
        rcases List.mem_append.mp hm with hm | hm
        · exact hlater.known_none (honward.known_none (hknown m hm))
        · exact List.mem_singleton.mp hm ▸ hlast

end Pursues

/-- A scan that has come to no edge before, whatever it knows of files: if it succeeds, it tells
each validation once and no target among them; the targets and these validations are the least set
that holds the targets and the validations of all edges to which something in it leads; and the scan
is done with all these edges. -/
theorem validations_are_closed {g : Graph} {survey : Survey} (hg : g.Linked)
    (hedges : ∀ e, (survey.edge e).visit = .unvisited) (hlt : ∀ n ∈ nodes, n < g.nodes.size)
    (h : all src nodes (.start g survey) = .ok found t) :
    found.Nodup ∧ (∀ v ∈ found, v ∉ nodes) ∧
      IsLeast {files : Set NodeId | t.graph.Encloses nodes files} {n | n ∈ nodes ++ found} ∧
      ∀ m ∈ nodes ++ found, ∀ e, t.graph.Leads m e → t.visitOf e = .done := by
  have hfresh : ∀ e, (Scan.start g survey).visitOf e = .unvisited := hedges
  obtain ⟨_, u, hfirst, hrest⟩ := Sequence.bind_eq_ok.mp h
  rw [Sequence.get_bind] at hrest
  obtain ⟨hu, hawaits, -, hknown⟩ := (Pursues.refl src hfresh nodes).targets hg
    (.refl hfresh rfl nodes) (fun n hn => ⟨hn, hlt n hn⟩) hfirst
  obtain ⟨ht, hawaits, hnone, hknown⟩ := hu.validate hg hawaits (by rwa [List.append_nil])
    (Nat.lt_succ_of_le u.card_outstanding_le) hrest
  have horderly := ht.orderly hg hedges
  have hdone : ∀ m ∈ nodes ++ found, ∀ e, t.graph.Leads m e → t.visitOf e = .done := by
    rintro m hm e ⟨n, hmade, hprod⟩
    exact (known_of_producer hprod).mp (horderly.known_madeFrom (hknown m hm) hmade)
  refine ⟨hawaits.once, hawaits.apart, ⟨⟨fun n hn => ?_, fun m hm e hleads v hv => ?_⟩,
    fun files hfiles n hn => ?_⟩, hdone⟩
  · exact List.mem_append_left _ hn
  · -- no validation is left to be taken
    rw [(ht.grows hg).validations] at hv
    exact (hawaits.met v ⟨e, hdone m hm e hleads, hv⟩).resolve_left (by rw [hnone]; simp)
  · refine Graph.CallsFor.mem ?_ hfiles
    rcases List.mem_append.mp hn with hn | hn
    · exact .target hn
    · exact ht.callsFor_of_due hg (hawaits.due n (List.mem_append_right _ hn))

/-- A program with two checks, of which one has validations of its own. -/
def checkedGraph : Graph where
  scopes := .initial
  nodes := #[⟨"app", some 0, [], [2], false⟩, ⟨"app.o", some 1, [0], [0], false⟩,
    ⟨"lint", some 2, [], [0, 1, 2], false⟩, ⟨"style", some 3, [], [2], false⟩]
  edges := #[⟨.rule 0, none, Scopes.root, [0], [], [1], [], [], [2, 1], none⟩,
    ⟨.rule 0, none, Scopes.root, [1], [], [], [], [], [2], none⟩,
    ⟨.rule 0, none, Scopes.root, [2], [], [], [], [], [2, 0, 3], none⟩,
    ⟨.rule 0, none, Scopes.root, [3], [], [], [], [], [], none⟩]
  rules := #[⟨"make", ∅⟩]
  pools := #[]
  defaults := []

def checkedSources : Sources :=
  ⟨⟨fun _ => .ok none, fun _ => .error .missing⟩, .inMemory⟩

/-- The object file was looked at before. -/
def checkedSurvey : Survey :=
  (default : Survey).modifyNode 1 (·.withStat none)

def checkedScan : Scan :=
  match all checkedSources [0] (.start checkedGraph checkedSurvey) with
  | .ok _ s | .error _ s => s

/-- The program checks its object file and is checked by what checks it. -/
theorem validations_are_closed_checked :
    all checkedSources [0] (.start checkedGraph checkedSurvey) = .ok [1, 2, 3] checkedScan ∧
      IsLeast {files : Set NodeId | checkedScan.graph.Encloses [0] files}
        {n | n ∈ [0] ++ [1, 2, 3]} := by
  have hscan : all checkedSources [0] (.start checkedGraph checkedSurvey) =
      .ok [1, 2, 3] checkedScan := by cbv
  have hfresh : ∀ e, (checkedSurvey.edge e).visit = .unvisited :=
    fun e => congrArg EdgeState.visit (Table.get_default e)
  exact ⟨hscan, (validations_are_closed (by decide) hfresh (by decide) hscan).2.2.1⟩

end Scan

end Rebuild
