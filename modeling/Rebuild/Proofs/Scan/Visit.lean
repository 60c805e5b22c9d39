import Rebuild.Proofs.Scan.Course

/-!
# A scan finds out what is stale

A scan that succeeds is a course of steps after which its targets, and the validations that come
with them, are known; so it is sound: all that it says about the edges that it is done with follows
from what it says about their inputs. The induction is on the depth of the walk, which never runs
out since each edge inwards was not looked at before.
-/

namespace Rebuild.Scan

/-- Scanning a node succeeds only by coming to know it. -/
structure Learns (src : Sources) (s t : Scan) (n : NodeId) : Prop where
  course : Course src s t
  onward : Onward none s t
  known : t.Known n

/-- What scanning inputs of an edge leaves as it was. -/
structure Collects (src : Sources) (id : EdgeId) (s t : Scan) : Prop where
  course : Course src s t
  onward : Onward (some id) s t
  visit : t.visitOf id = .inProgress
  edge : t.graph.edge id = s.graph.edge id

section Inputs

variable {src : Sources} {id : EdgeId} {s t u : Scan}

theorem Collects.refl (src : Sources) (hid : s.visitOf id = .inProgress) : Collects src id s s :=
  ⟨.refl, .refl _ s, hid, rfl⟩

theorem Collects.trans (h : Collects src id s t) (h' : Collects src id t u) :
    Collects src id s u where
  course := h.course.trans h'.course
  onward := h.onward.trans h'.onward
  visit := h'.visit
  edge := h'.edge.trans h.edge

theorem Collects.unvisitedCount_le (h : Collects src id s t) :
    t.unvisitedCount ≤ s.unvisitedCount := by
  refine h.onward.unvisitedCount_le ?_
  rintro _ ⟨⟩
  rw [h.visit]
  simp

theorem Collects.lt (h : Collects src id s t) {n : Nat} (hn : n < s.graph.nodes.size) :
    n < t.graph.nodes.size :=
  Nat.lt_of_lt_of_le hn h.onward.graph.nodes_size

theorem Learns.collects {n : NodeId} (h : Learns src s t n) (hid : s.visitOf id = .inProgress) :
    Collects src id s t where
  course := h.course
  onward := h.onward.weaken _
  visit := (h.onward.visitOf_eq (by simp) (by rw [hid]; simp)).trans hid
  edge := (h.onward.kept id (by simp) (.inl (by rw [hid]; simp))).1

theorem Holds.collects (h : Holds id s t) : Collects src id s t where
  course := .single (.holds h)
  onward := h.onward
  visit := (h.visitOf_eq id).trans h.current
  edge := by rw [h.graph]

/-- An edge is held back unless an input that was scanned can be used. -/
def held (id : EdgeId) (input : NodeId) (s : Scan) : Scan :=
  if s.survey.isAvailable s.graph input then s
  else { s with survey := s.survey.modifyEdge id ({ · with outputReady := false }) }

theorem scanInputs_cons {visit : NodeId → Scanning Unit} (input : NodeId) (orderOnly : Bool)
    (rest : List (NodeId × Bool)) (sum : InputSummary) (hvisit : visit input s = .ok () u) :
    scanInputs visit id ((input, orderOnly) :: rest) sum s = scanInputs visit id rest
      (if orderOnly then sum else sum.add (u.survey.node input)) (held id input u) := by
  rw [scanInputs, Sequence.bind_of_ok _ hvisit, Sequence.get_bind, held]
  by_cases havail : u.survey.isAvailable u.graph input
  · rw [if_pos havail, havail, if_neg (by simp)]
  · rw [if_neg havail]
    rw [Bool.not_eq_true] at havail
    rw [havail, if_pos (by simp)]
    rfl

theorem collects_held (input : NodeId) (hid : s.visitOf id = .inProgress) :
    Collects src id s (held id input s) := by
  unfold held
  split
  · exact .refl src hid
  · have hedge := Survey.edge_modifyEdge s.survey id
    refine Holds.collects ⟨hid, rfl, ?_, fun e he => ?_, fun _ => rfl⟩
    · rw [hedge, if_pos rfl]
    · rw [hedge, if_neg (Ne.symm he)]

theorem outputReady_held (input : NodeId) : ((held id input s).survey.edge id).outputReady =
    ((s.survey.edge id).outputReady && s.survey.isAvailable s.graph input) := by
  unfold held
  by_cases havail : s.survey.isAvailable s.graph input
  · rw [if_pos havail, havail, Bool.and_true]
  · rw [if_neg havail, Survey.edge_modifyEdge, if_pos rfl]
    simp [havail]

/-- The summary of inputs, some of which are order-only. -/
def summarize (survey : Survey) (inputs : List (NodeId × Bool)) (sum : InputSummary) :
    InputSummary :=
  inputs.foldl (fun sum p => if p.2 then sum else sum.add (survey.node p.1)) sum

theorem scanInputs_ok {visit : NodeId → Scanning Unit} {depth : Nat}
    (hvisit : ∀ {n u v}, u.graph.Linked → n < u.graph.nodes.size → u.unvisitedCount ≤ depth →
      visit n u = .ok () v → Learns src u v n)
    {inputs : List (NodeId × Bool)} {sum sum' : InputSummary} (hs : s.graph.Linked)
    (hinputs : ∀ p ∈ inputs, p.1 < s.graph.nodes.size) (hdepth : s.unvisitedCount ≤ depth)
    (hid : s.visitOf id = .inProgress) (h : scanInputs visit id inputs sum s = .ok sum' t) :
    Collects src id s t ∧ (∀ p ∈ inputs, t.Known p.1) ∧
      (t.survey.edge id).outputReady = ((s.survey.edge id).outputReady &&
        inputs.all fun p => t.survey.isAvailable t.graph p.1) ∧
      sum' = summarize t.survey inputs sum := by
  induction inputs generalizing s sum with
  | nil =>
    obtain ⟨rfl, rfl⟩ := Sequence.pure_eq_ok.mp h
    exact ⟨.refl src hid, by simp, by simp, rfl⟩
  | cons p inputs ih =>
    obtain ⟨input, orderOnly⟩ := p
    obtain ⟨_, u, hfirst, -⟩ := Sequence.bind_eq_ok.mp h
    rw [scanInputs_cons input orderOnly inputs sum hfirst] at h
    have hu := hvisit hs (hinputs _ List.mem_cons_self) hdepth hfirst
    have hgather := hu.collects hid
    have hstate : u.survey.edge id = s.survey.edge id :=
      (hu.onward.kept id (by simp) (.inl (by rw [hid]; simp))).2
    have hhold : Collects src id u (held id input u) := collects_held input hgather.visit
    have hsofar := hgather.trans hhold
    obtain ⟨htail, hknown, hlast, hsum⟩ := ih (hsofar.course.linked hs)
      (fun q hq => hsofar.lt (hinputs q (List.mem_cons_of_mem _ hq)))
      (Nat.le_trans hsofar.unvisitedCount_le hdepth) hhold.visit h
    have hown := ne_done_of_inProgress hgather.visit
    have honward := (hhold.trans htail).onward
    refine ⟨hsofar.trans htail, ?_, ?_, ?_⟩
    · intro q hq
      rcases List.mem_cons.mp hq with rfl | hq
      · exact honward.known hown hu.known
      · exact hknown q hq
    · rw [hlast, outputReady_held, hstate, List.all_cons, honward.isAvailable_eq hown hu.known,
        Bool.and_assoc]
    · rw [hsum, summarize, summarize, List.foldl_cons, honward.node_eq hown hu.known]

end Inputs

/-! ## Edges -/

section Edges

variable {src : Sources} {id : EdgeId} {s t : Scan}

/-- An edge that is first looked at: its outputs are looked at, and its dependency file is loaded.
-/
theorem open_ok {u v : Scan} (hid : s.visitOf id = .unvisited)
    (hstat : statAll src.files (s.graph.edge id).outs
      { s with survey := s.survey.modifyEdge id fun st =>
        { st with visit := .inProgress, outputReady := true } } = .ok () u)
    (hload : loadDepsOnce src.files id u = .ok () v) : Opens src.files id s v := by
  obtain ⟨hgraph, hedges, hnode, hout⟩ := statAll_ok hstat
  obtain ⟨hloaded, hnodes, -, hstate⟩ := loadDepsOnce_ok hload
  have hopen := Survey.edge_modifyEdge s.survey id
  have hu : ∀ e, u.survey.edge e = if id = e then
      { s.survey.edge id with visit := .inProgress, outputReady := true } else s.survey.edge e :=
    fun e => (congrArg (fun edges => Table.get edges e) hedges).trans (hopen e _)
  have hv : ∀ n, v.survey.node n = u.survey.node n :=
    fun n => congrArg (fun nodes => Table.get nodes n) hnodes
  refine ⟨hid, ?_, ?_, fun e he => ?_, fun n hn => ?_, fun n hn => ?_⟩
  · rw [hloaded, hu, if_pos rfl, hgraph]
  · rw [hstate, if_pos rfl, hu, if_pos rfl]
  · rw [hstate, if_neg (Ne.symm he), hu, if_neg (Ne.symm he)]
  · rw [hv, hnode n hn]
    rfl
  · rw [hv]
    exact hout n hn

private theorem summarize_inputs (g : Graph) (survey : Survey) (id : EdgeId) :
    summarize survey ((g.edge id).nonOrderOnlyIns.map ((·, false)) ++
      (g.edge id).orderOnlyIns.map ((·, true))) ⟨false, none⟩ = summary g survey id := by
  have hskip : ∀ (ids : List NodeId) (sum : InputSummary),
      (ids.map ((·, true))).foldl
        (fun sum p => if p.2 then sum else sum.add (survey.node p.1)) sum = sum := by
    intro ids
    induction ids with
    | nil => exact fun _ => rfl
    | cons n ids ih => exact fun sum => ih sum
  rw [summarize, List.foldl_append, hskip, List.foldl_map]
  rfl

theorem map_inputs (e : Edge) :
    (e.nonOrderOnlyIns.map ((·, false)) ++ e.orderOnlyIns.map ((·, true))).map Prod.fst =
      e.ins := by
  simp [Edge.ins, Function.comp_def]

theorem mem_inputs {e : Edge} {p : NodeId × Bool}
    (hp : p ∈ e.nonOrderOnlyIns.map ((·, false)) ++ e.orderOnlyIns.map ((·, true))) :
    p.1 ∈ e.ins :=
  map_inputs e ▸ List.mem_map_of_mem hp

/-- The validations of the edge, which are noted first, make no difference. -/
theorem close_ok {log : BuildLog} {u : Scan} {dirty : Bool} {validations : List NodeId}
    (hid : s.visitOf id = .inProgress) (hknown : ∀ n ∈ (s.graph.edge id).ins, s.Known n)
    (hready : (s.survey.edge id).outputReady = s.survey.inputsReady s.graph id)
    (hjudge : judge log id (summary s.graph s.survey id)
      { s with validations := validations } = .ok dirty u)
    (hconclude : conclude id dirty u = .ok () t) : Concludes log id s t := by
  obtain ⟨hstale, hgraph, hedges, -, hadopt⟩ := judge_ok hjudge
  dsimp only at hgraph hedges hadopt
  obtain ⟨hgraph', -, hnode, hstate⟩ := conclude_ok hconclude
  rw [hgraph] at hnode hstate hgraph'
  have hu : ∀ e, u.survey.edge e = s.survey.edge e :=
    fun e => congrArg (fun edges => Table.get edges e) hedges
  change dirty = isStale log s.graph s.survey id at hstale
  subst hstale
  refine ⟨hid, hknown, hready, hgraph', ?_, fun e he => ?_, fun n hn => ?_, fun n hn => ?_⟩
  · rw [hstate, if_pos rfl, hu, isIdle]
  · rw [hstate, if_neg (Ne.symm he), hu]
  · rw [hnode, if_neg hn, hadopt, if_neg fun hand => hn hand.2.2]
  · rw [hnode, if_pos hn, hadopt]
    by_cases hphony : (s.graph.edge id).isPhony
    · simp only [isStale, hphony, hn, Bool.not_true, Bool.false_and, Bool.or_false, Bool.true_and,
        and_self, and_true]
      split <;> rfl
    · simp [hphony]

/-- The steps of scanning an edge: it is opened, its inputs are scanned, and it is concluded. Its
validations are noted on the way. -/
theorem scanEdge_steps {visit : NodeId → Scanning Unit} {depth : Nat}
    (hvisit : ∀ {n u v}, u.graph.Linked → n < u.graph.nodes.size → u.unvisitedCount ≤ depth →
      visit n u = .ok () v → Learns src u v n)
    (hs : s.graph.Linked) (hid : s.visitOf id = .unvisited) (hlt : id < s.graph.edges.size)
    (hdepth : s.unvisitedCount ≤ depth + 1) (h : scanEdge src visit id s = .ok () t) :
    ∃ v w sum, Opens src.files id s v ∧ v.validations = s.validations ∧
      v.unvisitedCount ≤ depth ∧
      scanInputs visit id ((v.graph.edge id).nonOrderOnlyIns.map ((·, false)) ++
        (v.graph.edge id).orderOnlyIns.map ((·, true))) ⟨false, none⟩ v = .ok sum w ∧
      Collects src id v w ∧ Concludes src.log id w t ∧
      t.validations = w.validations ++ (w.graph.edge id).validations := by
  obtain ⟨_, _, hopen, h⟩ := Sequence.bind_eq_ok.mp h
  obtain rfl := (EStateM.Result.ok.inj hopen).2
  rw [Sequence.get_bind] at h
  obtain ⟨_, u, hstat, h⟩ := Sequence.bind_eq_ok.mp h
  obtain ⟨_, v, hload, h⟩ := Sequence.bind_eq_ok.mp h
  have hopens := open_ok hid hstat hload
  have hvid := hopens.visitOf_eq
  have hv : v.graph.Linked := (hopens.adds hs).linked
  have hvalidations : v.validations = s.validations := by
    obtain ⟨-, -, hsame, -⟩ := loadDepsOnce_ok hload
    rw [hsame, statAll_validations hstat]
  rw [Sequence.get_bind] at h
  obtain ⟨sum, w, hinputs, h⟩ := Sequence.bind_eq_ok.mp h
  have hcount : v.unvisitedCount ≤ depth := by
    have hless := (hopens.onward hs).unvisitedCount_lt hlt hid (by rw [hvid]; simp)
    omega
  obtain ⟨hgather, hknown, hready, hsum⟩ :=
    scanInputs_ok hvisit hv (fun p hp => hv.lt_of_in (mem_inputs hp)) hcount hvid hinputs
  obtain ⟨_, _, hvals, h⟩ := Sequence.bind_eq_ok.mp h
  obtain rfl := (EStateM.Result.ok.inj hvals).2
  obtain ⟨dirty, x, hjudge, hconclude⟩ := Sequence.bind_eq_ok.mp h
  have hsummary : summary w.graph w.survey id = sum := by
    rw [hsum, summarize_inputs v.graph]
    exact summary_congr hgather.edge fun _ _ => rfl
  subst hsummary
  have hins : ∀ n ∈ (w.graph.edge id).ins, w.Known n := by
    rw [hgather.edge, ← map_inputs]
    intro n hn
    obtain ⟨p, hp, rfl⟩ := List.mem_map.mp hn
    exact hknown p hp
  have hwready : (w.survey.edge id).outputReady = w.survey.inputsReady w.graph id := by
    rw [hready, hopens.edge, Bool.true_and, Survey.inputsReady, hgather.edge, ← map_inputs,
      List.all_map]
    rfl
  refine ⟨v, w, _, hopens, hvalidations, hcount, hinputs, hgather,
    close_ok hgather.visit hins hwready hjudge hconclude, ?_⟩
  obtain ⟨-, -, -, hjudged, -⟩ := judge_ok hjudge
  obtain ⟨-, hconcluded, -, -⟩ := conclude_ok hconclude
  rw [hconcluded, hjudged, hgather.edge]

theorem scanEdge_ok {visit : NodeId → Scanning Unit} {depth : Nat}
    (hvisit : ∀ {n u v}, u.graph.Linked → n < u.graph.nodes.size → u.unvisitedCount ≤ depth →
      visit n u = .ok () v → Learns src u v n)
    (hs : s.graph.Linked) (hid : s.visitOf id = .unvisited) (hlt : id < s.graph.edges.size)
    (hdepth : s.unvisitedCount ≤ depth + 1) (h : scanEdge src visit id s = .ok () t) :
    Course src s t ∧ Onward none s t ∧ t.visitOf id = .done := by
  obtain ⟨v, w, sum, hopens, -, -, -, hgather, hconcludes, -⟩ :=
    scanEdge_steps hvisit hs hid hlt hdepth h
  have hv := (hopens.adds hs).linked
  have hlast := hconcludes.onward (hgather.course.linked hv)
  refine ⟨?_, ?_, hconcludes.visitOf_eq⟩
  · exact (Relation.ReflTransGen.head (.opens hopens) hgather.course).tail (.concludes hconcludes)
  · exact (((hopens.onward hs).trans hgather.onward).trans hlast).complete hid
      hconcludes.visitOf_eq

end Edges

/-! ## Walks -/

section Walks

variable {src : Sources} {s t : Scan}

/-- Scanning a file that nothing makes is looking at it, unless that was done before. -/
theorem scanLeaf_looks {n : NodeId} (hn : (s.graph.node n).producer = none)
    (h : scanLeaf src.files n s = .ok () t) :
    t.Known n ∧ (t = s ∨ Looks src.files n s t) := by
  rcases scanLeaf_ok h with ⟨hstat, rfl⟩ | ⟨hstat, hgraph, hedges, hother, mtime, hfile, hnode⟩
  · exact ⟨(known_of_leaf hn).mpr hstat, .inl rfl⟩
  · refine ⟨?_, .inr ⟨hn, hstat, hgraph, fun e => congrArg (fun edges => Table.get edges e) hedges,
      hother, mtime, hfile, hnode⟩⟩
    rw [known_of_leaf (by rw [hgraph, hn]), hnode]
    exact NodeState.isStatted_withStat (s.survey.node n) mtime

theorem scanLeaf_learns {n : NodeId} (hn : (s.graph.node n).producer = none)
    (hlt : n < s.graph.nodes.size) (h : scanLeaf src.files n s = .ok () t) :
    Learns src s t n := by
  obtain ⟨hknown, rfl | hlooks⟩ := scanLeaf_looks hn h
  · exact ⟨.refl, .refl none t, hknown⟩
  · exact ⟨.single (.looks hlooks hlt), hlooks.onward, hknown⟩

/-- What a step of the walk is that succeeds. -/
theorem visit_ok {depth : Nat} {stack : List NodeId} {n : NodeId}
    (h : visit src depth stack n s = .ok () t) :
    ((s.graph.node n).producer = none ∧ scanLeaf src.files n s = .ok () t) ∨
      ∃ e, (s.graph.node n).producer = some e ∧ (s.visitOf e = .done ∧ t = s ∨
        s.visitOf e = .unvisited ∧ (depth = 0 ∧ t = s ∨
          ∃ d, depth = d + 1 ∧ scanEdge src (visit src d (n :: stack)) e s = .ok () t)) := by
  rw [visit.eq_def] at h
  dsimp only at h
  rw [Sequence.get_bind] at h
  cases hn : (s.graph.node n).producer with
  | none =>
    rw [hn] at h
    exact .inl ⟨rfl, h⟩
  | some e =>
    rw [hn] at h
    refine .inr ⟨e, rfl, ?_⟩
    dsimp only at h
    cases he : (s.survey.edge e).visit with
    | done =>
      rw [he] at h
      obtain ⟨-, rfl⟩ := Sequence.pure_eq_ok.mp h
      exact .inl ⟨he, rfl⟩
    | inProgress =>
      rw [he] at h
      exact absurd h Sequence.throw_ne_ok
    | unvisited =>
      rw [he] at h
      refine .inr ⟨he, ?_⟩
      cases depth with
      | zero =>
        obtain ⟨-, rfl⟩ := Sequence.pure_eq_ok.mp h
        exact .inl ⟨rfl, rfl⟩
      | succ d => exact .inr ⟨d, rfl, h⟩

/-- The walk comes to know a node, and `depth` was enough for it. -/
theorem visit_learns {depth : Nat} {stack : List NodeId} {n : NodeId} (hs : s.graph.Linked)
    (hlt : n < s.graph.nodes.size) (hdepth : s.unvisitedCount ≤ depth)
    (h : visit src depth stack n s = .ok () t) : Learns src s t n := by
  induction depth generalizing stack n s t with
  | zero =>
    rcases visit_ok h with ⟨hn, hleaf⟩ | ⟨e, hn, ⟨he, rfl⟩ | ⟨he, -⟩⟩
    · exact scanLeaf_learns hn hlt hleaf
    · exact ⟨.refl, .refl none t, (known_of_producer hn).mpr he⟩
    · have hpos := s.unvisitedCount_pos (hs.edge_lt_of_out hn) he
      omega
  | succ depth ih =>
    rcases visit_ok h with ⟨hn, hleaf⟩ | ⟨e, hn, ⟨he, rfl⟩ | ⟨he, ⟨hzero, -⟩ | ⟨d, hd, hedge⟩⟩⟩
    · exact scanLeaf_learns hn hlt hleaf
    · exact ⟨.refl, .refl none t, (known_of_producer hn).mpr he⟩
    · omega
    · obtain rfl : depth = d := Nat.succ.inj hd
      obtain ⟨hcourse, honward, hdone⟩ :=
        scanEdge_ok ih hs he (hs.edge_lt_of_out hn) hdepth hedge
      exact ⟨hcourse, honward,
        (known_of_producer ((honward.graph.producer n).trans hn)).mpr hdone⟩

theorem target_learns {n : NodeId} (hs : s.graph.Linked) (hlt : n < s.graph.nodes.size)
    (h : target src n s = .ok () t) : Learns src s t n := by
  rw [target, Sequence.get_bind] at h
  exact visit_learns hs hlt (s.graph.countEdges_le_size _) h

/-! ## Soundness -/

theorem Sound.orderly (hs : Sound src s) : Orderly src.log s :=
  ⟨hs.linked, fun e he => (settled_iff.mp (hs.settled e he)).2⟩

/-- What is sound stays so in a course of steps that leaves open edges alone. -/
theorem Sound.course (hs : Sound src s) (hcourse : Course src s t) (h : Onward none s t) :
    Sound src t := by
  have horderly := hcourse.orderly hs.orderly
  have hkept : ∀ e, t.visitOf e = .unvisited → t.survey.edge e = s.survey.edge e :=
    fun e he => (h.kept e (by simp) (.inr he)).2
  refine ⟨horderly.linked, fun e he => ?_, fun e he => ?_⟩
  · rw [hkept e he]
    exact hs.fresh e (by rw [visitOf, ← hkept e he]; exact he)
  · refine settled_iff.mpr ⟨?_, horderly.closed e he⟩
    cases hbefore : s.visitOf e with
    | done =>
      exact (hs.settled e hbefore).heeded.grows h.graph hs.linked
    | inProgress =>
      rw [h.visitOf_eq (by simp) (by rw [hbefore]; simp), hbefore] at he
      cases he
    | unvisited =>
      intro path hlists
      have huses : Uses src.files s e path :=
        .inr ⟨hs.fresh e hbefore, (Depfile.lists_congr h.graph hs.linked path).mp hlists⟩
      obtain ⟨n, hn, hpath⟩ := Graph.mem_paths.mp
        ((hcourse.mem_paths_ins_iff hs.linked hbefore (by rw [he]; simp) path).mpr huses)
      exact ⟨n, horderly.linked.findNode?_eq_some_iff.mpr ⟨horderly.linked.lt_of_in hn, hpath⟩, hn⟩

/-- What is sound stays so while edges stay as they are. -/
theorem Sound.of_edges (hs : Sound src s) (h : Onward none s t) (hgraph : t.graph = s.graph)
    (hedge : ∀ e, t.survey.edge e = s.survey.edge e) : Sound src t := by
  have hvisit : ∀ e, t.visitOf e = s.visitOf e := fun e => congrArg EdgeState.visit (hedge e)
  refine ⟨hgraph ▸ hs.linked, fun e he => ?_, fun e he => ?_⟩
  · rw [hedge]
    exact hs.fresh e (hvisit e ▸ he)
  · rw [hvisit] at he
    exact settled_iff.mpr ⟨hgraph ▸ (hs.settled e he).heeded,
      closed_onward hs.linked hs.orderly.closed h (by simp) he⟩

/-- A target that is no node of the graph is looked at like a file that nothing makes. -/
theorem target_ok {n : NodeId} (hs : Sound src s) (h : target src n s = .ok () t) :
    Sound src t ∧ Onward none s t ∧ t.Known n := by
  by_cases hlt : n < s.graph.nodes.size
  · have hlearns := target_learns hs.linked hlt h
    exact ⟨hs.course hlearns.course hlearns.onward, hlearns.onward, hlearns.known⟩
  · have hn : (s.graph.node n).producer = none := by
      rw [Graph.node_of_size_le (Nat.le_of_not_lt hlt)]
      rfl
    rw [target, Sequence.get_bind] at h
    rcases visit_ok h with ⟨-, hleaf⟩ | ⟨e, he, -⟩
    · obtain ⟨hknown, rfl | hlooks⟩ := scanLeaf_looks hn hleaf
      · exact ⟨hs, .refl none t, hknown⟩
      · exact ⟨hs.of_edges hlooks.onward hlooks.graph hlooks.edge, hlooks.onward, hknown⟩
    · rw [hn] at he
      cases he

/-- A scan is sound whatever validations and faults it has met. -/
theorem Sound.congr (hs : Sound src s) (hgraph : t.graph = s.graph)
    (hsurvey : t.survey = s.survey) : Sound src t ∧ Onward none s t := by
  have honward : Onward none s t := .of_same none hgraph hsurvey
  exact ⟨hs.of_edges honward hgraph fun e => by rw [hsurvey], honward⟩

/-- What a scan knows it knows later on. -/
theorem Onward.known_none (h : Onward none s t) {n : NodeId} (hn : s.Known n) : t.Known n :=
  h.known (by simp) hn

theorem targets_ok {nodes : List NodeId} (hs : Sound src s) (h : targets src nodes s = .ok () t) :
    Sound src t ∧ Onward none s t ∧ ∀ n ∈ nodes, t.Known n := by
  induction nodes generalizing s with
  | nil =>
    obtain ⟨-, rfl⟩ := Sequence.pure_eq_ok.mp h
    exact ⟨hs, .refl none s, by simp⟩
  | cons n nodes ih =>
    obtain ⟨_, u, hfirst, hrest⟩ := Sequence.bind_eq_ok.mp h
    obtain ⟨hu, hfirstOnward, hn⟩ := target_ok hs hfirst
    obtain ⟨hsound, honward, hknown⟩ := ih hu hrest
    refine ⟨hsound, hfirstOnward.trans honward, fun m hm => ?_⟩
    rcases List.mem_cons.mp hm with rfl | hm
    · exact honward.known_none hn
    · exact hknown m hm

theorem popValidation_ok {node : Option NodeId} (h : popValidation s = .ok node t) :
    t.graph = s.graph ∧ t.survey = s.survey := by
  unfold popValidation at h
  split at h
  · obtain ⟨-, rfl⟩ := EStateM.Result.ok.inj h
    exact ⟨rfl, rfl⟩
  · obtain ⟨-, rfl⟩ := EStateM.Result.ok.inj h
    exact ⟨rfl, rfl⟩

theorem validate_ok {known found found' : List NodeId} {n : Nat} (hs : Sound src s)
    (hfound : ∀ m ∈ found, s.Known m) (h : validate src known n found s = .ok found' t) :
    Sound src t ∧ Onward none s t ∧ ∀ m ∈ found', t.Known m := by
  induction n generalizing found s with
  | zero =>
    obtain ⟨rfl, rfl⟩ := Sequence.pure_eq_ok.mp h
    exact ⟨hs, .refl none s, hfound⟩
  | succ n ih =>
    obtain ⟨node, u, hpop, h⟩ := Sequence.bind_eq_ok.mp h
    obtain ⟨hgraph, hsurvey⟩ := popValidation_ok hpop
    obtain ⟨hu, honward⟩ := hs.congr hgraph hsurvey
    have hknown : ∀ m ∈ found, u.Known m := fun m hm => honward.known_none (hfound m hm)
    cases node with
    | none =>
      obtain ⟨rfl, rfl⟩ := Sequence.pure_eq_ok.mp h
      exact ⟨hu, honward, hknown⟩
    | some node =>
      dsimp only at h
      by_cases hseen : (found.contains node || known.contains node) = true
      · rw [if_pos hseen] at h
        obtain ⟨hsound, hrest, hall⟩ := ih hu hknown h
        exact ⟨hsound, honward.trans hrest, hall⟩
      · rw [if_neg hseen] at h
        obtain ⟨_, v, htarget, h⟩ := Sequence.bind_eq_ok.mp h
        obtain ⟨hv, hvOnward, hnode⟩ := target_ok hu htarget
        have hmore : ∀ m ∈ found ++ [node], v.Known m := by
          intro m hm
          rcases List.mem_append.mp hm with hm | hm
          · exact hvOnward.known_none (hknown m hm)
          · exact List.mem_singleton.mp hm ▸ hnode
        obtain ⟨hsound, hrest, hall⟩ := ih hv hmore h
        exact ⟨hsound, (honward.trans hvOnward).trans hrest, hall⟩

/-- A scan that nothing was found out for knows nothing, and nothing wrong. -/
theorem Sound.start {g : Graph} (hg : g.Linked) : Sound src (.start g default) where
  linked := hg
  fresh _ _ := rfl
  settled e he := by
    have hstate : (Scan.start g default).survey.edge e = default := Table.get_default e
    rw [visitOf, hstate] at he
    cases he

/-- A scan that succeeds stays sound and knows what it was to scan. -/
theorem all_ok {nodes validations : List NodeId} (hs : Sound src s)
    (h : all src nodes s = .ok validations t) :
    Sound src t ∧ Onward none s t ∧ ∀ n ∈ nodes ++ validations, t.Known n := by
  obtain ⟨_, u, htargets, h⟩ := Sequence.bind_eq_ok.mp h
  obtain ⟨hu, honward, hknown⟩ := targets_ok hs htargets
  rw [Sequence.get_bind] at h
  obtain ⟨hsound, hrest, hall⟩ := validate_ok hu (by simp) h
  refine ⟨hsound, honward.trans hrest, fun n hn => ?_⟩
  rcases List.mem_append.mp hn with hn | hn
  · exact hrest.known_none (hknown n hn)
  · exact hall n hn

/-- A scan of a graph about which nothing was known first, and for which `nodes` were scanned since,
alone or with all validations, each successfully. -/
inductive Scanned (src : Sources) (g : Graph) : List NodeId → Scan → Prop
  | start : Scanned src g [] (.start g default)
  | target {nodes s node t} : Scanned src g nodes s → target src node s = .ok () t →
    Scanned src g (nodes ++ [node]) t
  | all {nodes s more validations t} : Scanned src g nodes s →
    all src more s = .ok validations t → Scanned src g (nodes ++ (more ++ validations)) t
  | resume {nodes s} : Scanned src g nodes s → Scanned src g nodes (.start s.graph s.survey)

/-- What was scanned is known, and everything found out is sound. -/
theorem Scanned.sound {g : Graph} (hg : g.Linked) {nodes : List NodeId}
    (h : Scanned src g nodes s) : Sound src s ∧ ∀ n ∈ nodes, s.Known n := by
  induction h with
  | start => exact ⟨.start hg, by simp⟩
  | target _ htarget ih =>
    obtain ⟨hs, hknown⟩ := ih
    obtain ⟨ht, honward, hnode⟩ := target_ok hs htarget
    refine ⟨ht, fun n hn => ?_⟩
    rcases List.mem_append.mp hn with hn | hn
    · exact honward.known_none (hknown n hn)
    · exact List.mem_singleton.mp hn ▸ hnode
  | all _ hall ih =>
    obtain ⟨hs, hknown⟩ := ih
    obtain ⟨hsound, honward, hmore⟩ := all_ok hs hall
    refine ⟨hsound, fun n hn => ?_⟩
    rcases List.mem_append.mp hn with hn | hn
    · exact honward.known_none (hknown n hn)
    · exact hmore n hn
  | @resume nodes s _ ih =>
    obtain ⟨hs, hknown⟩ := ih
    obtain ⟨hsound, honward⟩ := hs.congr (t := .start s.graph s.survey) rfl rfl
    exact ⟨hsound, fun n hn => honward.known_none (hknown n hn)⟩

/-- Scans leave what is known about edges as it was, unless they come to them. -/
theorem Scanned.onward {g : Graph} (hg : g.Linked) {nodes : List NodeId}
    (h : Scanned src g nodes s) : Onward none (.start g default) s := by
  induction h with
  | start => exact .refl none _
  | target h htarget ih => exact ih.trans (target_ok (h.sound hg).1 htarget).2.1
  | all h hall ih => exact ih.trans (all_ok (h.sound hg).1 hall).2.1
  | @resume nodes s h ih =>
    exact ih.trans ((h.sound hg).1.congr (t := .start s.graph s.survey) rfl rfl).2

end Walks

end Rebuild.Scan
