import Mathlib.Logic.Relation
import Rebuild.Proofs.Scan.Steps

/-!
# The course of a scan

A scan goes on in steps: a file that nothing makes is looked at, and an edge is opened, held back
because an input of it cannot be used yet, and concluded. `Step` says all that a step can do; what
holds along a scan is shown for each kind of step and then for a course of them.
-/

namespace Rebuild.Scan

/-! ## Steps -/

/-- A file that nothing makes is looked at for the first time. It is stale if it does not exist. -/
structure Looks (files : FileView) (n : NodeId) (s t : Scan) : Prop where
  leaf : (s.graph.node n).producer = none
  fresh : ¬(s.survey.node n).isStatted
  graph : t.graph = s.graph
  edge : ∀ e, t.survey.edge e = s.survey.edge e
  other : ∀ m, m ≠ n → t.survey.node m = s.survey.node m
  node : ∃ mtime, files.stat (s.graph.node n).path = .ok mtime ∧
    t.survey.node n = { (s.survey.node n).withStat mtime with dirty := mtime.isNone }

/-- An edge is come to for the first time: its outputs are looked at and its dependency file is
loaded, each unless that was done before. -/
structure Opens (files : FileView) (id : EdgeId) (s t : Scan) : Prop where
  fresh : s.visitOf id = .unvisited
  graph : t.graph =
    if (s.survey.edge id).depsLoaded then s.graph else loaded files s.graph id
  edge : t.survey.edge id = ⟨.inProgress, true, true⟩
  other : ∀ e, e ≠ id → t.survey.edge e = s.survey.edge e
  apart : ∀ n ∉ (s.graph.edge id).outs, t.survey.node n = s.survey.node n
  out : ∀ n ∈ (s.graph.edge id).outs,
    StattedAs files (s.graph.node n).path (s.survey.node n) (t.survey.node n)

/-- An open edge turns out to have an input that cannot be used yet. -/
structure Holds (id : EdgeId) (s t : Scan) : Prop where
  current : s.visitOf id = .inProgress
  graph : t.graph = s.graph
  edge : t.survey.edge id = { s.survey.edge id with outputReady := false }
  other : ∀ e, e ≠ id → t.survey.edge e = s.survey.edge e
  node : ∀ n, t.survey.node n = s.survey.node n

/-- An edge whose inputs are all known is judged. The outputs of an edge that only groups files
become as new as its newest input, if nothing is stale. -/
structure Concludes (log : BuildLog) (id : EdgeId) (s t : Scan) : Prop where
  current : s.visitOf id = .inProgress
  known : ∀ n ∈ (s.graph.edge id).ins, s.Known n
  ready : (s.survey.edge id).outputReady = s.survey.inputsReady s.graph id
  graph : t.graph = s.graph
  edge : t.survey.edge id = { s.survey.edge id with
    visit := .done
    outputReady := (s.survey.edge id).outputReady && isIdle log s.graph s.survey id }
  other : ∀ e, e ≠ id → t.survey.edge e = s.survey.edge e
  apart : ∀ n ∉ (s.graph.edge id).outs, t.survey.node n = s.survey.node n
  out : ∀ n ∈ (s.graph.edge id).outs, t.survey.node n = { s.survey.node n with
    dirty := isStale log s.graph s.survey id
    mtime := if (s.graph.edge id).isPhony && !isStale log s.graph s.survey id then
      (summary s.graph s.survey id).newest.or (s.survey.node n).mtime
      else (s.survey.node n).mtime }

/-- One step of a scan. -/
inductive Step (src : Sources) (s t : Scan) : Prop
  | looks {n : NodeId} (h : Looks src.files n s t) (within : n < s.graph.nodes.size)
  | opens {id : EdgeId} (h : Opens src.files id s t)
  | holds {id : EdgeId} (h : Holds id s t)
  | concludes {id : EdgeId} (h : Concludes src.log id s t)

/-- Any number of steps of a scan. -/
abbrev Course (src : Sources) : Scan → Scan → Prop :=
  Relation.ReflTransGen (Step src)

section Steps

variable {src : Sources} {files : FileView} {log : BuildLog} {id : EdgeId} {s t : Scan}

/-- While an edge is scanned nothing counts as its own scan being over. -/
theorem ne_done_of_inProgress (hid : s.visitOf id = .inProgress) :
    ∀ e, some id = some e → s.visitOf e ≠ .done := by
  rintro _ ⟨⟩
  rw [hid]
  simp

theorem Looks.onward {n : NodeId} (h : Looks files n s t) : Onward none s t := by
  refine .of_survey (by rw [h.graph]; exact .refl _) (fun _ _ => by rw [h.graph])
    (fun e _ => h.edge e) (fun m e hm _ => h.other m ?_) fun m _ hm => h.other m ?_
  · rintro rfl
    rw [h.leaf] at hm
    cases hm
  · rintro rfl
    exact h.fresh hm

theorem Opens.visitOf_eq (h : Opens files id s t) : t.visitOf id = .inProgress :=
  congrArg EdgeState.visit h.edge

/-- The graph grows by what the dependency file of the edge lists. -/
theorem Opens.adds (h : Opens files id s t) (hs : s.graph.Linked) :
    Depfile.Adds id s.graph t.graph := by
  rw [h.graph]
  split
  · exact .refl hs id
  · exact loaded_adds hs id

theorem Opens.onward (h : Opens files id s t) (hs : s.graph.Linked) :
    Onward (some id) s t := by
  have hadds := h.adds hs
  have hapart : ∀ n, (s.graph.node n).producer ≠ some id → t.survey.node n = s.survey.node n :=
    fun n hn => h.apart n fun hmem => hn ((hs.producer_iff n id).mpr hmem)
  refine .of_survey hadds.grows (fun e he => hadds.others e fun heq => he (congrArg some heq))
    (fun e he => h.other e fun heq => he (congrArg some heq))
    (fun n e hn he => hapart n fun heq => he (hn.symm.trans heq))
    fun n hn _ => hapart n (by rw [hn]; simp)

theorem Holds.visitOf_eq (h : Holds id s t) (e : EdgeId) : t.visitOf e = s.visitOf e := by
  by_cases heq : e = id
  · subst heq
    rw [visitOf, h.edge, visitOf]
  · rw [visitOf, h.other e heq, visitOf]

theorem Holds.onward (h : Holds id s t) : Onward (some id) s t :=
  .of_survey (by rw [h.graph]; exact .refl _) (fun _ _ => by rw [h.graph])
    (fun e he => h.other e fun heq => he (congrArg some heq)) (fun n _ _ _ => h.node n)
    fun n _ _ => h.node n

theorem Concludes.visitOf_eq (h : Concludes log id s t) : t.visitOf id = .done :=
  congrArg EdgeState.visit h.edge

theorem Concludes.onward (h : Concludes log id s t) (hs : s.graph.Linked) :
    Onward (some id) s t := by
  have hapart : ∀ n, (s.graph.node n).producer ≠ some id → t.survey.node n = s.survey.node n :=
    fun n hn => h.apart n fun hmem => hn ((hs.producer_iff n id).mpr hmem)
  refine .of_survey (by rw [h.graph]; exact .refl _) (fun _ _ => by rw [h.graph])
    (fun e he => h.other e fun heq => he (congrArg some heq))
    (fun n e hn he => hapart n fun heq => he (hn.symm.trans heq))
    fun n hn _ => hapart n (by rw [hn]; simp)

/-- A step works on one edge at most, which is not done before. -/
structure Touches (own : Option EdgeId) (s t : Scan) : Prop where
  onward : Onward own s t
  before : ∀ e, own = some e → s.visitOf e ≠ .done
  after : ∀ e, own = some e → t.visitOf e ≠ .unvisited
  edge : ∀ e, some e ≠ own → t.survey.edge e = s.survey.edge e
  node : ∀ n e, (s.graph.node n).producer = some e → some e ≠ own →
    t.survey.node n = s.survey.node n

theorem Step.touches (h : Step src s t) (hs : s.graph.Linked) :
    t.graph.Linked ∧ ∃ own, Touches own s t := by
  have hne : ∀ {d e : EdgeId}, some e ≠ some d → e ≠ d := fun hne heq => hne (congrArg some heq)
  cases h with
  | looks h _ =>
    refine ⟨h.graph ▸ hs, none, h.onward, by simp, by simp, fun e _ => h.edge e, ?_⟩
    rintro n e hn -
    refine h.other n fun heq => ?_
    rw [heq, h.leaf] at hn
    cases hn
  | @opens id h =>
    refine ⟨(h.adds hs).linked, some id, h.onward hs, ?_, ?_, fun e he => h.other e (hne he), ?_⟩
    · rintro _ ⟨⟩; rw [h.fresh]; simp
    · rintro _ ⟨⟩; rw [h.visitOf_eq]; simp
    · exact fun n e hn he => h.apart n fun hmem =>
        he (hn.symm.trans ((hs.producer_iff n id).mpr hmem))
  | @holds id h =>
    refine ⟨h.graph ▸ hs, some id, h.onward, ?_, ?_, fun e he => h.other e (hne he),
      fun n _ _ _ => h.node n⟩
    · rintro _ ⟨⟩; rw [h.current]; simp
    · rintro _ ⟨⟩; rw [h.visitOf_eq, h.current]; simp
  | @concludes id h =>
    refine ⟨h.graph ▸ hs, some id, h.onward hs, ?_, ?_, fun e he => h.other e (hne he), ?_⟩
    · rintro _ ⟨⟩; rw [h.current]; simp
    · rintro _ ⟨⟩; rw [h.visitOf_eq]; simp
    · exact fun n e hn he => h.apart n fun hmem =>
        he (hn.symm.trans ((hs.producer_iff n id).mpr hmem))

theorem Touches.visitOf_eq {own : Option EdgeId} (h : Touches own s t) {e : EdgeId}
    (he : some e ≠ own) : t.visitOf e = s.visitOf e :=
  congrArg EdgeState.visit (h.edge e he)

/-- The outcome for an edge agrees with the state of its inputs and outputs afterwards. -/
theorem Concludes.isStale_eq (h : Concludes log id s t) (hs : s.graph.Linked) :
    isStale log t.graph t.survey id = isStale log s.graph s.survey id := by
  have honward := h.onward hs
  refine isStale_congr honward.graph hs (by rw [h.graph])
    (fun n hn => honward.node_eq (ne_done_of_inProgress h.current) (h.known n hn))
    (fun n hn => by rw [h.out n hn]) fun hphony n hn => ?_
  rw [h.out n hn]
  simp [hphony]

end Steps

/-! ## Edges that a scan is done with -/

/-- Nodes and edges agree, and what a scan says about the edges that it is done with follows from
what it says about their inputs. -/
structure Orderly (log : BuildLog) (s : Scan) : Prop where
  linked : s.graph.Linked
  closed : ∀ e, s.visitOf e = .done → Closed log s e

section Orderly

variable {src : Sources} {log : BuildLog} {id : EdgeId} {s t : Scan}

private theorem Concludes.closed (h : Concludes log id s t) (hs : Orderly log s) :
    Closed log t id := by
  have honward := h.onward hs.linked
  have hown := ne_done_of_inProgress h.current
  have hstale := h.isStale_eq hs.linked
  have hready := honward.inputsReady_eq hown (by rw [h.graph]) h.known
  have hidle : isIdle log t.graph t.survey id = isIdle log s.graph s.survey id := by
    rw [isIdle, isIdle, hstale, h.graph]
  refine ⟨fun n hn => ?_, fun n hn => ?_, ?_, Acc.intro id ?_⟩
  · rw [h.graph] at hn
    exact honward.known hown (h.known n hn)
  · rw [h.graph] at hn
    rw [h.out n hn, hstale]
  · rw [h.edge, hready, hidle, ← h.ready]
  · rintro p ⟨n, hn, hprod⟩
    rw [h.graph] at hn hprod
    have hdone := (known_of_producer hprod).mp (h.known n hn)
    exact (closed_onward hs.linked hs.closed honward hown hdone).founded

theorem Step.orderly (h : Step src s t) (hs : Orderly src.log s) : Orderly src.log t := by
  obtain ⟨hlinked, own, htouches⟩ := h.touches hs.linked
  refine ⟨hlinked, fun e he => ?_⟩
  have hkept : s.visitOf e = .done → Closed src.log t e :=
    closed_onward hs.linked hs.closed htouches.onward htouches.before
  -- only a step that concludes an edge makes one done
  cases h with
  | looks h _ => exact hkept (by rwa [visitOf, ← h.edge])
  | @opens id h =>
    by_cases heq : e = id
    · rw [heq, h.visitOf_eq] at he
      cases he
    · exact hkept (by rwa [visitOf, ← h.other e heq])
  | holds h => exact hkept (h.visitOf_eq e ▸ he)
  | @concludes id h =>
    by_cases heq : e = id
    · exact heq ▸ h.closed hs
    · exact hkept (by rwa [visitOf, ← h.other e heq])

theorem Course.linked (h : Course src s t) (hs : s.graph.Linked) : t.graph.Linked := by
  induction h with
  | refl => exact hs
  | tail _ hstep ih => exact (hstep.touches ih).1

theorem Course.grows (h : Course src s t) (hs : s.graph.Linked) : s.graph.Grows t.graph := by
  induction h with
  | refl => exact .refl _
  | tail hcourse hstep ih =>
    obtain ⟨-, _, htouches⟩ := hstep.touches (Course.linked hcourse hs)
    exact ih.trans htouches.onward.graph

/-- Nothing is wrong with what is known as long as no edge was come to. -/
theorem Orderly.of_fresh (log : BuildLog) (hg : s.graph.Linked)
    (hedges : ∀ e, s.visitOf e = .unvisited) : Orderly log s :=
  ⟨hg, fun e he => by rw [hedges] at he; cases he⟩

theorem Course.orderly (h : Course src s t) (hs : Orderly src.log s) : Orderly src.log t := by
  induction h with
  | refl => exact hs
  | tail _ hstep ih => exact hstep.orderly ih

end Orderly

/-! ## What an edge uses -/

/-- A path is that of an input of an edge, or its dependency file, which is still to be loaded,
lists it. -/
def Uses (files : FileView) (s : Scan) (e : EdgeId) (path : String) : Prop :=
  path ∈ s.graph.paths (s.graph.edge e).ins ∨
    ((s.survey.edge e).depsLoaded = false ∧ Depfile.Lists files s.graph e path)

section Uses

variable {src : Sources} {s t : Scan}

/-- What an edge uses does not depend on other edges. -/
private theorem uses_congr {files : FileView} {e : EdgeId} (hs : s.graph.Linked)
    (hgraph : s.graph.Grows t.graph) (hedge : t.graph.edge e = s.graph.edge e)
    (hdeps : (t.survey.edge e).depsLoaded = (s.survey.edge e).depsLoaded) (path : String) :
    Uses files t e path ↔ Uses files s e path := by
  unfold Uses
  rw [hedge, hgraph.paths_ins hs, hdeps, Depfile.lists_congr hgraph hs]

/-- What an edge uses is the same all along, whether its dependency file was loaded or not. -/
theorem Step.uses_iff (h : Step src s t) (hs : s.graph.Linked) (e : EdgeId) (path : String) :
    Uses src.files t e path ↔ Uses src.files s e path := by
  cases h with
  | looks h _ =>
    exact uses_congr hs h.onward.graph (by rw [h.graph]) (by rw [h.edge]) path
  | @opens id h =>
    by_cases heq : e = id
    · subst heq
      unfold Uses
      rw [h.edge, h.graph]
      by_cases hdeps : (s.survey.edge e).depsLoaded
      · simp [hdeps]
      · simp [hdeps, mem_paths_loaded hs]
    · exact uses_congr hs (h.onward hs).graph ((h.adds hs).others e heq) (by rw [h.other e heq])
        path
  | @holds id h =>
    refine uses_congr hs h.onward.graph (by rw [h.graph]) ?_ path
    by_cases heq : e = id
    · subst heq; rw [h.edge]
    · rw [h.other e heq]
  | @concludes id h =>
    refine uses_congr hs (h.onward hs).graph (by rw [h.graph]) ?_ path
    by_cases heq : e = id
    · subst heq; rw [h.edge]
    · rw [h.other e heq]

/-- An edge that was come to since has its dependency file loaded. -/
theorem Step.depsLoaded (h : Step src s t) {e : EdgeId} (ht : t.visitOf e ≠ .unvisited)
    (hs : s.visitOf e = .unvisited ∨ (s.survey.edge e).depsLoaded) :
    (t.survey.edge e).depsLoaded := by
  have hkept : t.survey.edge e = s.survey.edge e → (t.survey.edge e).depsLoaded := by
    intro heq
    rw [visitOf, heq] at ht
    rw [heq]
    exact hs.resolve_left ht
  cases h with
  | looks h _ => exact hkept (h.edge e)
  | @opens id h =>
    by_cases heq : e = id
    · subst heq; rw [h.edge]
    · exact hkept (h.other e heq)
  | @holds id h =>
    by_cases heq : e = id
    · subst heq
      rw [h.edge]
      exact hs.resolve_left (by rw [h.current]; simp)
    · exact hkept (h.other e heq)
  | @concludes id h =>
    by_cases heq : e = id
    · subst heq
      rw [h.edge]
      exact hs.resolve_left (by rw [h.current]; simp)
    · exact hkept (h.other e heq)

theorem Course.uses_iff (h : Course src s t) (hs : s.graph.Linked) (e : EdgeId) (path : String) :
    Uses src.files t e path ↔ Uses src.files s e path := by
  induction h with
  | refl => exact .rfl
  | tail hcourse hstep ih => exact (hstep.uses_iff (Course.linked hcourse hs) e path).trans ih

theorem Course.depsLoaded (h : Course src s t) {e : EdgeId} (hfresh : s.visitOf e = .unvisited)
    (ht : t.visitOf e ≠ .unvisited) : (t.survey.edge e).depsLoaded := by
  induction h with
  | refl => exact absurd hfresh ht
  | @tail u v _ hstep ih =>
    by_cases hu : u.visitOf e = .unvisited
    · exact hstep.depsLoaded ht (.inl hu)
    · exact hstep.depsLoaded ht (.inr (ih hu))

/-- The inputs of an edge that was come to since are all that it uses. -/
theorem Course.mem_paths_ins_iff (h : Course src s t) (hs : s.graph.Linked) {e : EdgeId}
    (hfresh : s.visitOf e = .unvisited) (ht : t.visitOf e ≠ .unvisited) (path : String) :
    path ∈ t.graph.paths (t.graph.edge e).ins ↔ Uses src.files s e path := by
  rw [← h.uses_iff hs e path, Uses, h.depsLoaded hfresh ht]
  simp

end Uses

end Rebuild.Scan
