import Rebuild.Program
import Rebuild.Proofs.Scan.Visit
import Rebuild.Proofs.Schedule.Cascade

/-!
# What a build needs

A schedule that targets were added to has registered the edges from which the targets are reached
through outputs that cannot be used yet, and no others. Each got the phase that the scan had found
out for it, and each edge that is stale and whose inputs are ready is queued once.
-/

namespace Rebuild.Schedule

/-- The edges that targets need: their producers, and what makes inputs of edges that are needed,
unless the outputs can be used. -/
inductive Needed (g : Graph) (survey : Survey) (targets : List NodeId) : EdgeId → Prop
  | target {n e} : n ∈ targets → (g.node n).producer = some e → ¬(survey.edge e).outputReady →
    Needed g survey targets e
  | input {n e p} : Needed g survey targets e → n ∈ (g.edge e).ins →
    (g.node n).producer = some p → ¬(survey.edge p).outputReady → Needed g survey targets p

/-- The phase with which an edge is registered. -/
def phaseFor (log : BuildLog) (found : Scan) (e : EdgeId) : Phase :=
  if Scan.isStale log found.graph found.survey e then
    if found.survey.inputsReady found.graph e then .queued else .waiting
  else .clean

theorem phaseFor_eq_clean {log : BuildLog} {found : Scan} {e : EdgeId} :
    phaseFor log found e = .clean ↔ ¬Scan.isStale log found.graph found.survey e := by
  unfold phaseFor
  split
  · next hstale => split <;> simp [hstale]
  · next hstale => simp [hstale]

theorem phaseFor_eq_waiting {log : BuildLog} {found : Scan} {e : EdgeId} :
    phaseFor log found e = .waiting ↔ Scan.isStale log found.graph found.survey e ∧
      ¬found.survey.inputsReady found.graph e := by
  unfold phaseFor
  split
  · next hstale => split <;> simp [*]
  · next hstale => simp [hstale]

theorem phaseFor_eq_queued {log : BuildLog} {found : Scan} {e : EdgeId} :
    phaseFor log found e = .queued ↔ Scan.isStale log found.graph found.survey e ∧
      found.survey.inputsReady found.graph e := by
  unfold phaseFor
  split
  · next hstale => split <;> simp [*]
  · next hstale => simp [hstale]

/-- An edge has a command and needs to run it. -/
def Due (g : Graph) (s : Schedule) (e : EdgeId) : Prop :=
  Stale s e ∧ (g.edge e).isPhony = false

instance (g : Graph) (s : Schedule) : DecidablePred (Due g s) :=
  fun _ => inferInstanceAs (Decidable (_ ∧ _))

/-- Nothing was taken from the queue of a schedule yet. -/
structure Idle (survey : Survey) (s : Schedule) : Prop where
  survey : s.survey = survey
  loads : s.loads = default
  running : s.running = []
  started : s.started = 0
  failed : s.failed = 0

/-- A schedule for edges that were scanned, before anything is taken from its queue. -/
structure Planned (src : Scan.Sources) (found : Scan) (s : Schedule) : Prop extends
    Idle found.survey s where
  phase : ∀ e phase, s.phase e = some phase → phase = phaseFor src.log found e ∧
    found.visitOf e = .done ∧ (found.survey.edge e).outputReady = false ∧
    e < found.graph.edges.size
  count : ∀ e, s.ready.count e = if s.phase e = some .queued then 1 else 0
  total : s.total = found.graph.countEdges (Due found.graph s)

section Need

variable {src : Scan.Sources} {found : Scan} {s t u : Schedule}

/-- A stale edge is queued at once if its inputs are ready. -/
theorem expect_eq (g : Graph) (e : EdgeId) (s : Schedule) :
    (∀ d, (s.expect g e).phase d = if e = d then
      some (if s.survey.inputsReady g e then .queued else .waiting) else s.phase d) ∧
    s.expect g e = { s with
      phases := (s.expect g e).phases
      ready := if s.survey.inputsReady g e then s.ready ++ [e] else s.ready
      total := if (g.edge e).isPhony then s.total else s.total + 1 } := by
  unfold expect
  dsimp only
  -- `mid` is the schedule before the edge is queued
  generalize hmid : (if (g.edge e).isPhony then _ else _ : Schedule) = mid
  have hframe : mid = { s with
      phases := (s.setPhase e (some .waiting)).phases
      total := if (g.edge e).isPhony then s.total else s.total + 1 } := by
    rw [← hmid]
    split <;> rfl
  have hphase : ∀ d, mid.phase d = if e = d then some .waiting else s.phase d := fun d => by
    rw [hframe]
    exact phase_setPhase s e d _
  have hsurvey : mid.survey = s.survey := by rw [hframe]
  rw [hsurvey]
  by_cases hready : s.survey.inputsReady g e
  · rw [if_pos hready, if_pos hready, if_pos hready, enqueue_of_ne (by rw [hphase]; simp)]
    refine ⟨fun d => (phase_setPhase mid e d _).trans ?_, by rw [hframe]; rfl⟩
    rw [hphase]
    split <;> rfl
  · rw [if_neg hready, if_neg hready, if_neg hready]
    exact ⟨hphase, by rw [hframe]⟩

/-! ## Before a build -/

namespace Idle

variable {survey : Survey} {g : Graph}

theorem start (survey : Survey) : Idle survey (Schedule.start survey) := ⟨rfl, rfl, rfl, rfl, rfl⟩

theorem needLeaf (h : Idle survey s) (neededBy : Option NodeId) (n : NodeId) :
    Idle survey (s.needLeaf g neededBy n) := by
  unfold Schedule.needLeaf
  dsimp only
  split
  · exact ⟨h.survey, h.loads, h.running, h.started, h.failed⟩
  · exact h

theorem expect (h : Idle survey s) (e : EdgeId) : Idle survey (s.expect g e) := by
  rw [(expect_eq g e s).2]
  exact ⟨h.survey, h.loads, h.running, h.started, h.failed⟩

theorem register (h : Idle survey s) (n : NodeId) (e : EdgeId) :
    Idle survey (s.register g n e) := by
  have hfirst : Idle survey (if (s.phase e).isNone then s.setPhase e (some .clean) else s) := by
    split
    · exact ⟨h.survey, h.loads, h.running, h.started, h.failed⟩
    · exact h
  unfold Schedule.register
  dsimp only
  generalize (if (s.phase e).isNone then _ else _ : Schedule) = mid at hfirst
  split
  · exact hfirst.expect e
  · exact hfirst

theorem want (h : Idle survey s) (depth : Nat) (neededBy : Option NodeId) (n : NodeId) :
    Idle survey (s.want g depth neededBy n) := by
  induction depth generalizing s neededBy n with
  | zero =>
    rw [want.eq_def]
    dsimp only
    split
    · exact h.needLeaf _ _
    · split
      · exact h
      · split <;> exact h.register _ _
  | succ depth ih =>
    rw [want.eq_def]
    dsimp only
    split
    · exact h.needLeaf _ _
    · next e _ =>
      split
      · exact h
      · split
        · exact h.register _ _
        · generalize s.register g n e = t, h.register (g := g) n e = ht
          induction (g.edge e).ins generalizing t with
          | nil => exact ht
          | cons m ms ihms => exact ihms _ (ih ht _ _)

theorem addTargets (h : Idle survey s) {targets : List NodeId}
    (hadd : s.addTargets g targets = .ok t) : Idle survey t := by
  unfold Schedule.addTargets at hadd
  dsimp only at hadd
  split at hadd
  · cases hadd
    clear * - h
    induction targets generalizing s with
    | nil => exact h
    | cons n ns ih => exact ih (h.want _ _ _)
  · cases hadd

end Idle

/-- Targets are added first, then validations. -/
theorem schedule_eq_ok {targets validations : List NodeId} :
    Program.schedule found targets validations = .ok s ↔
      ∃ t, (Schedule.start found.survey).addTargets found.graph targets = .ok t ∧
        t.addTargets found.graph validations = .ok s := by
  unfold Program.schedule
  cases (Schedule.start found.survey).addTargets found.graph targets with
  | error e => exact ⟨(nomatch ·), fun ⟨_, h, _⟩ => nomatch h⟩
  | ok t => exact ⟨fun h => ⟨t, rfl, h⟩, fun ⟨_, h, hrest⟩ => by cases h; exact hrest⟩

/-- Whatever was scanned, nothing happened to a schedule before its build. -/
theorem schedule_idle {targets validations : List NodeId}
    (h : Program.schedule found targets validations = .ok s) : Idle found.survey s := by
  obtain ⟨t, hfirst, hsecond⟩ := schedule_eq_ok.mp h
  exact ((Idle.start found.survey).addTargets hfirst).addTargets hsecond

/-! ## Registering edges -/

theorem Planned.start (src : Scan.Sources) (found : Scan) :
    Planned src found (Schedule.start found.survey) := by
  have hnone : ∀ e, (Schedule.start found.survey).phase e = none := fun e => Table.get_default e
  refine ⟨.start _, ?_, ?_, ?_⟩
  · intro e phase h
    rw [hnone] at h
    cases h
  · intro e
    rw [hnone]
    rfl
  · refine (Finset.card_eq_zero.mpr (Finset.filter_eq_empty_iff.mpr fun e _ => ?_)).symm
    simp [Due, Stale, hnone]

/-- An edge that is registered was scanned, and cannot be used yet. -/
theorem Planned.of_isSome (h : Planned src found s) {e : EdgeId} (he : (s.phase e).isSome) :
    s.phase e = some (phaseFor src.log found e) ∧ found.visitOf e = .done ∧
      (found.survey.edge e).outputReady = false ∧ e < found.graph.edges.size := by
  obtain ⟨phase, hphase⟩ := Option.isSome_iff_exists.mp he
  obtain ⟨rfl, hrest⟩ := h.phase e phase hphase
  exact ⟨hphase, hrest⟩

/-- Missing files are noted apart. -/
theorem Planned.needLeaf (h : Planned src found s) (neededBy : Option NodeId) (n : NodeId) :
    Planned src found (s.needLeaf found.graph neededBy n) ∧
      (s.needLeaf found.graph neededBy n).phases = s.phases := by
  have hidle := h.toIdle.needLeaf (g := found.graph) neededBy n
  revert hidle
  unfold Schedule.needLeaf
  dsimp only
  split
  · exact fun hidle => ⟨⟨hidle, h.phase, h.count, h.total⟩, rfl⟩
  · exact fun _ => ⟨h, rfl⟩

/-- How an edge is registered that was not before. -/
theorem register_new {n : NodeId} {e : EdgeId} (hs : s.survey = found.survey)
    (he : s.phase e = none)
    (hdirty : (found.survey.node n).dirty = Scan.isStale src.log found.graph found.survey e) :
    (∀ d, (s.register found.graph n e).phase d =
      if e = d then some (phaseFor src.log found e) else s.phase d) ∧
    s.register found.graph n e = { s with
      phases := (s.register found.graph n e).phases
      ready := if phaseFor src.log found e = .queued then s.ready ++ [e] else s.ready
      total := if phaseFor src.log found e ≠ .clean ∧ (found.graph.edge e).isPhony = false then
        s.total + 1 else s.total } := by
  have hclean := phase_setPhase s e
  obtain ⟨hphase, hrest⟩ := expect_eq found.graph e (s.setPhase e (some .clean))
  have hsurvey : (s.setPhase e (some .clean)).survey = found.survey := hs
  rw [hsurvey] at hphase hrest
  unfold register phaseFor
  rw [he, Option.isNone_none, if_pos rfl]
  dsimp only
  rw [hsurvey, hdirty, hclean, if_pos rfl]
  by_cases hstale : Scan.isStale src.log found.graph found.survey e
  · rw [hstale, if_pos (by simp), if_pos rfl, hrest]
    refine ⟨fun d => (hphase d).trans ?_, ?_⟩
    · by_cases hd : e = d
      · rw [if_pos hd, if_pos hd]
      · rw [if_neg hd, if_neg hd, hclean, if_neg hd]
    · by_cases hready : found.survey.inputsReady found.graph e <;>
        by_cases hphony : (found.graph.edge e).isPhony <;> simp [hready, hphony, setPhase, hs]
  · rw [Bool.not_eq_true] at hstale
    rw [hstale, if_neg (by simp), if_neg (by simp)]
    exact ⟨fun d => hclean d _, by simp; rfl⟩

/-- An edge with that phase stays as it is. -/
theorem register_registered {n : NodeId} {e : EdgeId} (h : Planned src found s)
    (he : (s.phase e).isSome)
    (hdirty : (found.survey.node n).dirty = Scan.isStale src.log found.graph found.survey e) :
    s.register found.graph n e = s := by
  obtain ⟨hphase, -⟩ := h.of_isSome he
  unfold register
  simp only [hphase, Option.isNone_some, Bool.false_eq_true, ↓reduceIte]
  rw [h.survey, hdirty, phaseFor]
  refine if_neg ?_
  cases Scan.isStale src.log found.graph found.survey e with
  | false => simp
  | true => by_cases hready : found.survey.inputsReady found.graph e <;> simp [hready]

/-- Registering an edge with the phase that the scan found out for it. -/
theorem Planned.register {n : NodeId} {e : Nat} (h : Planned src found s) (he : s.phase e = none)
    (hdirty : (found.survey.node n).dirty = Scan.isStale src.log found.graph found.survey e)
    (hdone : found.visitOf e = .done) (hready : (found.survey.edge e).outputReady = false)
    (hlt : e < found.graph.edges.size) : Planned src found (s.register found.graph n e) := by
  obtain ⟨hphase, hframe⟩ := register_new h.survey he hdirty
  have hidle := h.toIdle.register (g := found.graph) n e
  generalize s.register found.graph n e = t at hphase hframe hidle
  refine ⟨hidle, fun d phase hd => ?_, fun d => ?_, ?_⟩
  · rw [hphase] at hd
    by_cases heq : e = d
    · subst heq
      rw [if_pos rfl] at hd
      exact ⟨(Option.some.inj hd).symm, hdone, hready, hlt⟩
    · rw [if_neg heq] at hd
      exact h.phase d phase hd
  · have hcount := h.count d
    rw [hphase, hframe]
    dsimp only
    by_cases heq : e = d
    · subst heq
      rw [he] at hcount
      simp only [reduceCtorEq, ↓reduceIte] at hcount
      by_cases hqueued : phaseFor src.log found e = .queued <;> simp [hqueued, hcount]
    · rw [if_neg heq, ← hcount]
      split
      · simp [heq]
      · rfl
  · have htotal : t.total = if phaseFor src.log found e ≠ .clean ∧
        (found.graph.edge e).isPhony = false then s.total + 1 else s.total := by rw [hframe]
    have hdue : ∀ d, Due found.graph t d ↔ Due found.graph s d ∨
        (d = e ∧ phaseFor src.log found e ≠ .clean ∧ (found.graph.edge e).isPhony = false) := by
      intro d
      unfold Due Stale
      rw [hphase]
      by_cases heq : e = d
      · subst heq
        simp only [he, ↓reduceIte, true_and]
        cases phaseFor src.log found e <;> simp
      · simp [heq, Ne.symm heq]
    by_cases hnew : phaseFor src.log found e ≠ .clean ∧ (found.graph.edge e).isPhony = false
    · rw [htotal, if_pos hnew, h.total]
      refine (Graph.countEdges_succ hlt (fun hd => ?_) fun d => ?_).symm
      · simp [Due, Stale, he] at hd
      · rw [hdue]
        simp [hnew]
    · rw [htotal, if_neg hnew, h.total]
      refine (Graph.countEdges_congr fun d => ?_).symm
      rw [hdue]
      simp [hnew]

/-! ## Walking inwards -/

/-- How many edges are not registered. -/
def unregisteredCount (g : Graph) (s : Schedule) : Nat :=
  g.countEdges fun e => s.phase e = none

/-- A file that nothing makes is missing: it is stale, and a statement names it. -/
def Lacking (found : Scan) (n : NodeId) : Prop :=
  (found.graph.node n).producer = none ∧ (found.graph.node n).fromDepfile = false ∧
    (found.survey.node n).dirty

/-- The path of a file is among those that are missing. -/
def Noted (found : Scan) (s : Schedule) (n : NodeId) : Prop :=
  (found.graph.node n).path ∈ s.missing.map (·.path)

theorem Noted.mono {n : NodeId} (hn : Noted found s n) (h : s.missing ⊆ t.missing) :
    Noted found t n :=
  List.map_subset _ h hn

theorem not_noted {n : NodeId} (h : s.missing = []) : ¬Noted found s n := by
  simp [Noted, h]

/-- What makes a file was seen to, or that it is missing. -/
structure SeenTo (found : Scan) (s : Schedule) (n : NodeId) : Prop where
  covered : Covered found.graph s n
  noted : Lacking found n → Noted found s n

theorem SeenTo.of_producer {n : NodeId} {e : EdgeId} (hp : (found.graph.node n).producer = some e)
    (h : (s.survey.edge e).outputReady ∨ (s.phase e).isSome) : SeenTo found s n := by
  refine ⟨fun p he => ?_, fun hlacking => ?_⟩
  · rwa [← Option.some.inj (hp.symm.trans he)]
  · rw [hlacking.1] at hp
    cases hp

/-- A file is noted if it is missing and was not noted before. -/
theorem needLeaf_cases (hs : s.survey = found.survey) (neededBy : Option NodeId) {n : NodeId}
    (hp : (found.graph.node n).producer = none) :
    (Lacking found n ∧ ¬Noted found s n ∧ (s.needLeaf found.graph neededBy n).missing =
      s.missing ++ [⟨(found.graph.node n).path,
        neededBy.map fun d => (found.graph.node d).path⟩]) ∨
    ((Lacking found n → Noted found s n) ∧
      (s.needLeaf found.graph neededBy n).missing = s.missing) := by
  have hguard : ((s.survey.node n).dirty && !(found.graph.node n).fromDepfile &&
      s.missing.all (·.path ≠ (found.graph.node n).path)) = true ↔
      Lacking found n ∧ ¬Noted found s n := by
    simp [Lacking, Noted, hs, hp, and_assoc, and_comm]
  unfold needLeaf
  dsimp only
  split
  · next h =>
    obtain ⟨hlacking, hnew⟩ := hguard.mp h
    exact .inl ⟨hlacking, hnew, rfl⟩
  · next h =>
    refine .inr ⟨fun hlacking => ?_, rfl⟩
    by_contra hnew
    exact h (hguard.mpr ⟨hlacking, hnew⟩)

/-- What is missing is noted, and what was noted stays. -/
theorem missing_needLeaf (hs : s.survey = found.survey) (neededBy : Option NodeId) {n : NodeId}
    (hp : (found.graph.node n).producer = none) :
    s.missing ⊆ (s.needLeaf found.graph neededBy n).missing ∧
      (Lacking found n → Noted found (s.needLeaf found.graph neededBy n) n) := by
  rcases needLeaf_cases hs neededBy hp with ⟨-, -, hmissing⟩ | ⟨hnoted, hmissing⟩
  · rw [Noted, hmissing]
    exact ⟨List.subset_append_left _ _, by simp⟩
  · rw [Noted, hmissing]
    exact ⟨List.Subset.refl _, hnoted⟩

/-- What is registered stays, and what goes into a newly registered edge is seen to. -/
structure Registers (src : Scan.Sources) (found : Scan) (need : EdgeId → Prop) (s t : Schedule) :
    Prop where
  planned : Planned src found t
  kept : ∀ e, (s.phase e).isSome → (t.phase e).isSome
  missing : s.missing ⊆ t.missing
  closed : ∀ e, s.phase e = none → (t.phase e).isSome →
    need e ∧ ∀ n ∈ (found.graph.edge e).ins, SeenTo found t n

variable {need : EdgeId → Prop}

theorem Registers.refl (h : Planned src found s) : Registers src found need s s :=
  ⟨h, fun _ => id, List.Subset.refl _, fun e hnone hsome => by rw [hnone] at hsome; cases hsome⟩

theorem Registers.seenTo (hs : Planned src found s) (h : Registers src found need s t) {n : NodeId}
    (hn : SeenTo found s n) : SeenTo found t n := by
  refine ⟨fun p hp => ?_, fun hlacking => (hn.noted hlacking).mono h.missing⟩
  rw [h.planned.survey, ← hs.survey]
  exact (hn.covered p hp).imp_right (h.kept p)

theorem Registers.trans (h : Registers src found need s t) (h' : Registers src found need t u) :
    Registers src found need s u where
  planned := h'.planned
  kept e he := h'.kept e (h.kept e he)
  missing := List.Subset.trans h.missing h'.missing
  closed e hnone hsome := by
    cases ht : t.phase e with
    | none => exact h'.closed e ht hsome
    | some phase =>
      obtain ⟨hneed, hins⟩ := h.closed e hnone (by rw [ht]; rfl)
      exact ⟨hneed, fun n hn => h'.seenTo h.planned (hins n hn)⟩

theorem Registers.unregisteredCount_le (h : Registers src found need s t) :
    unregisteredCount found.graph t ≤ unregisteredCount found.graph s := by
  refine Graph.countEdges_mono rfl fun e he => ?_
  by_contra hsome
  have hkept := h.kept e (Option.isSome_iff_ne_none.mpr hsome)
  rw [he] at hkept
  cases hkept

theorem foldl_registers {w : NodeId → Schedule → Schedule} {P : NodeId → Prop} {k : Nat}
    (hwant : ∀ {n u}, P n → Planned src found u → unregisteredCount found.graph u ≤ k →
      Registers src found need u (w n u) ∧ SeenTo found (w n u) n)
    {ns : List NodeId} (hns : ∀ n ∈ ns, P n) (hs : Planned src found s)
    (hk : unregisteredCount found.graph s ≤ k) :
    Registers src found need s (ns.foldl (fun s n => w n s) s) ∧
      ∀ n ∈ ns, SeenTo found (ns.foldl (fun s n => w n s) s) n := by
  induction ns generalizing s with
  | nil => exact ⟨.refl hs, by simp⟩
  | cons n ns ih =>
    obtain ⟨hfirst, hseen⟩ := hwant (hns n List.mem_cons_self) hs hk
    obtain ⟨hrest, hall⟩ := ih (fun m hm => hns m (List.mem_cons_of_mem _ hm)) hfirst.planned
      (Nat.le_trans hfirst.unregisteredCount_le hk)
    refine ⟨hfirst.trans hrest, fun m hm => ?_⟩
    rcases List.mem_cons.mp hm with rfl | hm
    · exact hrest.seenTo hfirst.planned hseen
    · exact hall m hm

/-- Registering an edge, apart from what goes into it. -/
theorem Planned.unregisteredCount_register {n : NodeId} {e : Nat} (h : Planned src found s)
    (he : s.phase e = none)
    (hdirty : (found.survey.node n).dirty = Scan.isStale src.log found.graph found.survey e)
    (hlt : e < found.graph.edges.size) :
    unregisteredCount found.graph (s.register found.graph n e) <
      unregisteredCount found.graph s := by
  obtain ⟨hphase, -⟩ := register_new h.survey he hdirty
  refine Graph.countEdges_lt rfl (fun d hd => ?_) hlt ?_ he
  · rw [hphase] at hd
    split at hd
    · cases hd
    · exact hd
  · rw [hphase, if_pos rfl]
    simp

/-- A file that the scan knows, and whose producer is needed if it cannot be used. -/
structure Wanted (found : Scan) (targets : List NodeId) (n : NodeId) : Prop where
  known : found.Known n
  needed : ∀ e, (found.graph.node n).producer = some e → ¬(found.survey.edge e).outputReady →
    Needed found.graph found.survey targets e

variable {targets : List NodeId}

/-- What a file is wanted for: nothing makes it; or what makes it can be used or was registered
before; or it is registered now, and then all that goes into it is wanted. -/
inductive Wanting (found : Scan) (s : Schedule) (neededBy : Option NodeId) (n : NodeId) :
    Nat → Schedule → Prop
  | leaf {depth : Nat} (producer : (found.graph.node n).producer = none) :
    Wanting found s neededBy n depth (s.needLeaf found.graph neededBy n)
  | covered {depth : Nat} {e : EdgeId} (producer : (found.graph.node n).producer = some e)
    (covered : (s.survey.edge e).outputReady ∨ (s.phase e).isSome) :
    Wanting found s neededBy n depth s
  | inward {depth : Nat} {e : EdgeId} (producer : (found.graph.node n).producer = some e)
    (done : found.visitOf e = .done) (unready : (found.survey.edge e).outputReady = false)
    (unregistered : s.phase e = none) : Wanting found s neededBy n (depth + 1)
      ((found.graph.edge e).ins.foldl (fun s input => s.want found.graph depth (some n) input)
        (s.register found.graph n e))

/-- `depth` is enough for the walk as long as it is not less than the number of edges that are not
registered. -/
theorem want_cases (hsound : Scan.Sound src found) {depth : Nat} (neededBy : Option NodeId)
    {n : NodeId} (hn : found.Known n) (hs : Planned src found s)
    (hdepth : unregisteredCount found.graph s ≤ depth) :
    Wanting found s neededBy n depth (s.want found.graph depth neededBy n) := by
  rw [want.eq_def]
  dsimp only
  cases hp : (found.graph.node n).producer with
  | none => exact .leaf hp
  | some e =>
    have hdone := (Scan.known_of_producer hp).mp hn
    dsimp only
    by_cases hready : (s.survey.edge e).outputReady
    · rw [if_pos hready]
      exact .covered hp (.inl hready)
    rw [if_neg hready]
    by_cases hsome : (s.phase e).isSome
    · have hdirty := (hsound.settled e hdone).dirty n ((hsound.linked.producer_iff n e).mp hp)
      rw [if_pos hsome, register_registered hs hsome hdirty]
      exact .covered hp (.inr hsome)
    rw [if_neg hsome]
    have hnone : s.phase e = none := by simpa using hsome
    cases depth with
    | zero =>
      have hpos : 0 < unregisteredCount found.graph s :=
        Graph.countEdges_pos (hsound.linked.edge_lt_of_out hp) hnone
      omega
    | succ depth => exact .inward hp hdone (by rw [← hs.survey]; simpa using hready) hnone

/-- How the producer `e` of a wanted file is registered that was not before: no other edge is, and
all that goes into `e` is wanted. -/
structure Enters (src : Scan.Sources) (found : Scan) (targets : List NodeId) (s : Schedule)
    (n : NodeId) (e : EdgeId) : Prop where
  needed : Needed found.graph found.survey targets e
  planned : Planned src found (s.register found.graph n e)
  phase : ∀ d, (s.register found.graph n e).phase d =
    if e = d then some (phaseFor src.log found e) else s.phase d
  missing : (s.register found.graph n e).missing = s.missing
  fewer : unregisteredCount found.graph (s.register found.graph n e) <
    unregisteredCount found.graph s
  wanted : ∀ m ∈ (found.graph.edge e).ins, Wanted found targets m

theorem Wanted.enters (hsound : Scan.Sound src found) {n : NodeId} {e : EdgeId}
    (hn : Wanted found targets n) (hs : Planned src found s)
    (hp : (found.graph.node n).producer = some e) (hdone : found.visitOf e = .done)
    (hready : (found.survey.edge e).outputReady = false) (hphase : s.phase e = none) :
    Enters src found targets s n e := by
  have hlt := hsound.linked.edge_lt_of_out hp
  have hset := hsound.settled e hdone
  have hdirty := hset.dirty n ((hsound.linked.producer_iff n e).mp hp)
  have hneeded := hn.needed e hp (by rw [hready]; simp)
  obtain ⟨hregistered, hframe⟩ := register_new hs.survey hphase hdirty
  exact ⟨hneeded, hs.register hphase hdirty hdone hready hlt, hregistered, by rw [hframe],
    hs.unregisteredCount_register hphase hdirty hlt,
    fun m hm => ⟨hset.known m hm, fun p hmp hmready => .input hneeded hm hmp hmready⟩⟩

/-- Wanting a file registers what it needs. -/
theorem want_registers (hsound : Scan.Sound src found) {depth : Nat} {neededBy : Option NodeId}
    {n : NodeId} (hn : Wanted found targets n) (hs : Planned src found s)
    (hdepth : unregisteredCount found.graph s ≤ depth) :
    Registers src found (Needed found.graph found.survey targets) s
        (s.want found.graph depth neededBy n) ∧
      SeenTo found (s.want found.graph depth neededBy n) n := by
  induction depth using Nat.strongRecOn generalizing neededBy n s with
  | ind depth ih =>
  have hcases := want_cases hsound neededBy hn.known hs hdepth
  generalize s.want found.graph depth neededBy n = t at hcases ⊢
  cases hcases with
  | leaf hp =>
    obtain ⟨hplanned, hphases⟩ := hs.needLeaf neededBy n
    have hphase : ∀ e, (s.needLeaf found.graph neededBy n).phase e = s.phase e :=
      fun e => congrArg (fun phases => Table.get phases e) hphases
    obtain ⟨hmissing, hnoted⟩ := missing_needLeaf hs.survey neededBy hp
    refine ⟨⟨hplanned, fun e he => (hphase e).symm ▸ he, hmissing, fun e hnone hsome => ?_⟩,
      fun p he => ?_, hnoted⟩
    · rw [hphase, hnone] at hsome
      cases hsome
    · rw [hp] at he
      cases he
  | covered hp hcovered => exact ⟨.refl hs, .of_producer hp hcovered⟩
  | @inward depth e hp hdone hready hphase =>
    have henters := hn.enters hsound hs hp hdone hready hphase
    obtain ⟨hrest, hall⟩ := foldl_registers (k := depth)
      (w := fun input s => s.want found.graph depth (some n) input)
      (ih depth (Nat.lt_succ_self depth)) henters.wanted henters.planned
      (Nat.le_of_lt_succ (Nat.lt_of_lt_of_le henters.fewer hdepth))
    have hself : (((found.graph.edge e).ins.foldl
        (fun s input => s.want found.graph depth (some n) input)
        (s.register found.graph n e)).phase e).isSome :=
      hrest.kept e (by rw [henters.phase, if_pos rfl]; rfl)
    refine ⟨⟨hrest.planned, fun d hd => hrest.kept d ?_, henters.missing ▸ hrest.missing,
      fun d hnone hsome => ?_⟩, .of_producer hp (.inr hself)⟩
    · rw [henters.phase]
      split
      · rfl
      · exact hd
    · by_cases heq : e = d
      · subst heq
        exact ⟨henters.needed, hall⟩
      · exact hrest.closed d (by rw [henters.phase, if_neg heq, hnone]) hsome

/-- A schedule once targets are wanted. -/
def wantAll (g : Graph) (targets : List NodeId) (s : Schedule) : Schedule :=
  targets.foldl (fun s n => s.want g g.edges.size none n) s

theorem addTargets_eq (g : Graph) (targets : List NodeId) (s : Schedule) :
    s.addTargets g targets = if (s.wantAll g targets).missing.isEmpty then
      .ok (s.wantAll g targets) else .error (.missingInputs (s.wantAll g targets).missing) :=
  rfl

theorem addTargets_eq_ok {g : Graph} :
    s.addTargets g targets = .ok t ↔ s.wantAll g targets = t ∧ t.missing = [] := by
  rw [addTargets_eq]
  split
  · next hmissing =>
    rw [Except.ok.injEq]
    exact ⟨fun h => ⟨h, h ▸ List.isEmpty_iff.mp hmissing⟩, And.left⟩
  · next hmissing => exact ⟨(nomatch ·), fun ⟨h, hnil⟩ => absurd (by rw [h, hnil]; rfl) hmissing⟩

theorem addTargets_eq_error {g : Graph} {missing : List MissingInput} :
    s.addTargets g targets = .error (.missingInputs missing) ↔
      (s.wantAll g targets).missing = missing ∧ missing ≠ [] := by
  rw [addTargets_eq]
  split
  · next hmissing =>
    exact ⟨(nomatch ·), fun ⟨h, hnil⟩ => absurd (h ▸ List.isEmpty_iff.mp hmissing) hnil⟩
  · next hmissing =>
    rw [Except.error.injEq, Error.missingInputs.injEq]
    exact ⟨fun h => ⟨h, h ▸ mt List.isEmpty_iff.mpr hmissing⟩, And.left⟩

/-- Wanting targets registers what they need. -/
theorem wantAll_registers (hsound : Scan.Sound src found) {more : List NodeId}
    (hmore : ∀ n ∈ more, n ∈ targets) (hknown : ∀ n ∈ more, found.Known n)
    (hs : Planned src found s) :
    Registers src found (Needed found.graph found.survey targets) s
        (s.wantAll found.graph more) ∧
      ∀ n ∈ more, SeenTo found (s.wantAll found.graph more) n :=
  foldl_registers (P := Wanted found targets) (fun hn hu hk => want_registers hsound hn hu hk)
    (fun n hn => ⟨hknown n hn, fun _ hp hready => .target (hmore n hn) hp hready⟩) hs
    (found.graph.countEdges_le_size _)

private theorem addTargets_registers (hsound : Scan.Sound src found) {more : List NodeId}
    (hmore : ∀ n ∈ more, n ∈ targets) (hknown : ∀ n ∈ more, found.Known n)
    (hs : Planned src found s) (h : s.addTargets found.graph more = .ok t) :
    Registers src found (Needed found.graph found.survey targets) s t ∧
      (∀ n ∈ more, SeenTo found t n) ∧ t.missing = [] := by
  obtain ⟨rfl, hmissing⟩ := addTargets_eq_ok.mp h
  obtain ⟨hreg, hseen⟩ := wantAll_registers hsound hmore hknown hs
  exact ⟨hreg, hseen, hmissing⟩

/-- Adding targets that were scanned registers what they need, and nothing is missing. -/
private theorem schedule_registers (hsound : Scan.Sound src found) {validations : List NodeId}
    (hknown : ∀ n ∈ targets ++ validations, found.Known n)
    (h : Program.schedule found targets validations = .ok s) :
    Registers src found (Needed found.graph found.survey (targets ++ validations))
        (.start found.survey) s ∧
      (∀ n ∈ targets ++ validations, SeenTo found s n) ∧ s.missing = [] := by
  obtain ⟨t, hfirst, hsecond⟩ := schedule_eq_ok.mp h
  have hleft : ∀ n ∈ targets, n ∈ targets ++ validations := fun n => List.mem_append_left _
  have hright : ∀ n ∈ validations, n ∈ targets ++ validations := fun n => List.mem_append_right _
  obtain ⟨hreg, hseen, -⟩ := addTargets_registers hsound hleft (fun n hn => hknown n (hleft n hn))
    (Planned.start src found) hfirst
  obtain ⟨hreg', hseen', hmissing⟩ := addTargets_registers hsound hright
    (fun n hn => hknown n (hright n hn)) hreg.planned hsecond
  refine ⟨hreg.trans hreg', fun n hn => ?_, hmissing⟩
  rcases List.mem_append.mp hn with hn | hn
  · exact hreg'.seenTo hreg.planned (hseen n hn)
  · exact hseen' n hn

/-- A build can be scheduled only if no target is missing, and no input of an edge that is needed.
-/
theorem schedule_supplied (hsound : Scan.Sound src found) {validations : List NodeId}
    (hknown : ∀ n ∈ targets ++ validations, found.Known n)
    (h : Program.schedule found targets validations = .ok s) :
    (∀ n ∈ targets ++ validations, ¬Lacking found n) ∧
      ∀ e, (s.phase e).isSome → ∀ n ∈ (found.graph.edge e).ins, ¬Lacking found n := by
  obtain ⟨hreg, hseen, hmissing⟩ := schedule_registers hsound hknown h
  refine ⟨fun n hn hlacking => not_noted hmissing ((hseen n hn).noted hlacking),
    fun e he n hn hlacking => ?_⟩
  exact not_noted hmissing (((hreg.closed e (Table.get_default e) he).2 n hn).noted hlacking)

theorem Needed.exists_out {g : Graph} (hg : g.Linked) {survey : Survey} {e : EdgeId}
    (h : Needed g survey targets e) : ∃ out, out ∈ (g.edge e).outs := by
  cases h with
  | @target n _ _ hp _ => exact ⟨n, (hg.producer_iff n e).mp hp⟩
  | @input n _ _ _ _ hp _ => exact ⟨n, (hg.producer_iff n e).mp hp⟩

/-- Needed edges are registered where targets are covered, and what goes into registered edges. -/
theorem Needed.isSome {g : Graph} {e : EdgeId} (h : Needed g s.survey targets e)
    (htargets : ∀ n ∈ targets, Covered g s n)
    (hclosed : ∀ d, (s.phase d).isSome → ∀ n ∈ (g.edge d).ins, Covered g s n) :
    (s.phase e).isSome := by
  induction h with
  | target hn hp hready => exact (htargets _ hn _ hp).resolve_left hready
  | input _ hn hp hready ih => exact (hclosed _ ih _ hn _ hp).resolve_left hready

/-- What a build is to do: exactly the needed edges are registered, each with the phase that the
scan found out for it, and what goes into one of them is covered. -/
structure Ready (src : Scan.Sources) (found : Scan) (targets : List NodeId) (s : Schedule) :
    Prop where
  planned : Planned src found s
  registered : ∀ e, (s.phase e).isSome ↔ Needed found.graph found.survey targets e
  closed : ∀ e, (s.phase e).isSome → ∀ n ∈ (found.graph.edge e).ins, Covered found.graph s n

/-- Adding targets that were scanned gets a build ready for them. -/
theorem schedule_ready (hsound : Scan.Sound src found) {validations : List NodeId}
    (hknown : ∀ n ∈ targets ++ validations, found.Known n)
    (h : Program.schedule found targets validations = .ok s) :
    Ready src found (targets ++ validations) s := by
  obtain ⟨hall, hseen, -⟩ := schedule_registers hsound hknown h
  have hclosed := fun e => hall.closed e (Table.get_default e)
  have hins := fun e he n hn => ((hclosed e he).2 n hn).covered
  refine ⟨hall.planned, fun e => ⟨fun he => (hclosed e he).1, fun he => ?_⟩, hins⟩
  rw [← hall.planned.survey] at he
  exact he.isSome (fun n hn => (hseen n hn).covered) hins

end Need

end Rebuild.Schedule
