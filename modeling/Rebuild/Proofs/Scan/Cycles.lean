import Mathlib.Data.List.Chain
import Rebuild.Proofs.Scan.Visit

/-!
# Dependency cycles

A scan stops at a dependency cycle exactly if the edges that its target needs contain one, and what
it reports is a cycle of the graph that it leaves behind. The nodes through which the walk came form
a trail: each is an input of the edge that makes the one before, and every edge that is open makes
one of them. So an open edge that is met again closes a cycle. The other way round, the edges that a
scan is done with are founded in one another, and a scan that succeeds is done with all that its
target needs.

The walk never runs out of depth: it comes out the same whatever is done where depth ends.
-/

namespace Rebuild

theorem Graph.Grows.madeFrom {g g' : Graph} (h : g.Grows g') {m n : NodeId} (hm : g.MadeFrom m n) :
    g'.MadeFrom m n := by
  obtain ⟨e, hprod, hin⟩ := hm
  exact ⟨e, (h.producer m).trans hprod, h.ins_subset e hin⟩

namespace Scan

/-! ## Need -/

/-- An edge uses the path of a file that another edge makes. -/
def Needs (files : FileView) (s : Scan) (e d : EdgeId) : Prop :=
  ∃ path n, Uses files s e path ∧ s.graph.findNode? path = some n ∧
    (s.graph.node n).producer = some d

/-- A file needs an edge, directly or through other edges. -/
def Reaches (files : FileView) (s : Scan) (start : NodeId) (e : EdgeId) : Prop :=
  ∃ first, (s.graph.node start).producer = some first ∧
    Relation.ReflTransGen (Needs files s) first e

/-- Among the edges that a file needs, one needs itself. -/
def HasCycle (files : FileView) (s : Scan) (start : NodeId) : Prop :=
  ∃ e, Reaches files s start e ∧ Relation.TransGen (Needs files s) e e

section Need

variable {src : Sources} {files : FileView} {s t : Scan}

/-- What edges need of one another is the same all along. -/
theorem Course.needs_iff (h : Course src s t) (hs : s.graph.Linked) (e d : EdgeId) :
    Needs src.files t e d ↔ Needs src.files s e d := by
  have hgrows := h.grows hs
  unfold Needs
  refine exists_congr fun path => exists_congr fun n => and_congr (h.uses_iff hs e path) ?_
  rw [hgrows.producer]
  refine and_congr_left fun hprod => ?_
  rw [(h.linked hs).findNode?_eq_some_iff, hs.findNode?_eq_some_iff]
  have hlt : n < s.graph.nodes.size := Graph.lt_of_producer hprod
  rw [hgrows.path n hlt]
  exact and_congr_left fun _ => iff_of_true (Nat.lt_of_lt_of_le hlt hgrows.nodes_size) hlt

theorem needs_of_madeFrom (hs : s.graph.Linked) {m n : NodeId} {d : EdgeId}
    (h : s.graph.MadeFrom m n) (hn : (s.graph.node n).producer = some d) :
    ∃ e, (s.graph.node m).producer = some e ∧ Needs files s e d := by
  obtain ⟨e, hm, hin⟩ := h
  have hpath : (s.graph.node n).path ∈ s.graph.paths (s.graph.edge e).ins :=
    Graph.mem_paths.mpr ⟨n, hin, rfl⟩
  exact ⟨e, hm, _, n, .inl hpath, hs.findNode?_eq_some_iff.mpr ⟨hs.lt_of_in hin, rfl⟩, hn⟩

theorem needs_of_transGen (files : FileView) (hs : s.graph.Linked) {m n : NodeId} {d : EdgeId}
    (h : Relation.TransGen s.graph.MadeFrom m n) (hn : (s.graph.node n).producer = some d) :
    ∃ e, (s.graph.node m).producer = some e ∧ Relation.TransGen (Needs files s) e d := by
  induction h generalizing d with
  | single hstep =>
    obtain ⟨e, hm, hneeds⟩ := needs_of_madeFrom hs hstep hn
    exact ⟨e, hm, .single hneeds⟩
  | tail _ hstep ih =>
    obtain ⟨c, hc, hneeds⟩ := needs_of_madeFrom hs hstep hn
    obtain ⟨e, hm, hrest⟩ := ih hc
    exact ⟨e, hm, hrest.tail hneeds⟩

end Need

/-! ## Trails -/

/-- A list of paths closes up: it comes back to where it starts, and each path is that of an input
of the edge that makes the one before. -/
structure ClosesUp (g : Graph) (paths : List String) : Prop where
  closed : paths.head? = paths.getLast?
  length : 2 ≤ paths.length
  chain : paths.IsChain fun p q => ∃ n e, g.findNode? p = some n ∧
    (g.node n).producer = some e ∧ q ∈ g.paths (g.edge e).ins

/-- A walk has come from `start` through the nodes of `stack`, the last one first, to `node`. -/
structure Trail (s : Scan) (start : NodeId) (stack : List NodeId) (node : NodeId) : Prop where
  reached : Relation.ReflTransGen s.graph.MadeFrom start node
  chain : (node :: stack).IsChain fun n m => s.graph.MadeFrom m n
  current : ∀ e, s.visitOf e = .inProgress → ∃ m ∈ stack, (s.graph.node m).producer = some e

section Trails

variable {s t : Scan} {start node : NodeId} {stack : List NodeId} {id : EdgeId}

/-- The first node of the trail that the open edge makes gives way to the node at which the edge was
met again, which the edge makes too. -/
theorem Trail.cycleAt_eq (h : Trail s start stack node)
    (hnode : (s.graph.node node).producer = some id) (hid : s.visitOf id = .inProgress) :
    ∃ next rest, cycleAt s.graph stack node id = s.graph.paths (node :: next :: rest) ∧
      (node :: next :: rest).getLast (by simp) = node ∧
      (node :: next :: rest).IsChain s.graph.MadeFrom := by
  have hchain : (stack.reverse ++ [node]).IsChain s.graph.MadeFrom := by
    rw [← List.reverse_cons]
    exact List.isChain_reverse.mpr h.chain
  obtain ⟨m, hm, hprod⟩ := h.current id hid
  have hsome : (stack.reverse.findIdx? fun n => (s.graph.node n).producer = some id).isSome := by
    rw [List.findIdx?_isSome, List.any_eq_true]
    exact ⟨m, List.mem_reverse.mpr hm, by simpa using hprod⟩
  obtain ⟨first, hfirst⟩ := Option.isSome_iff_exists.mp hsome
  obtain ⟨hlt, hmakes, -⟩ := List.findIdx?_eq_some_iff_getElem.mp hfirst
  rw [decide_eq_true_eq] at hmakes
  -- from the first node on, the trail is a chain whose head may be any output of the edge
  have hsuffix := hchain.drop first
  rw [List.drop_append_of_le_length hlt.le, List.drop_eq_getElem_cons hlt, List.cons_append]
    at hsuffix
  have hclosed : (node :: (stack.reverse.drop (first + 1) ++ [node])).IsChain s.graph.MadeFrom :=
    hsuffix.imp_head fun ⟨e, he, hin⟩ => ⟨e, by rw [hnode, ← hmakes, he], hin⟩
  have hlist : cycleAt s.graph stack node id =
      s.graph.paths (node :: (stack.reverse.drop (first + 1) ++ [node])) := by
    rw [cycleAt, hfirst]
    rfl
  obtain ⟨next, rest, hrest⟩ :
      ∃ next rest, stack.reverse.drop (first + 1) ++ [node] = next :: rest :=
    List.exists_cons_of_ne_nil (by simp)
  refine ⟨next, rest, hrest ▸ hlist, ?_, hrest ▸ hclosed⟩
  simp only [← hrest, List.getLast_cons (List.concat_ne_nil _ _), List.getLast_concat]

theorem Trail.closesUp (h : Trail s start stack node) (hs : s.graph.Linked)
    (hnode : (s.graph.node node).producer = some id) (hid : s.visitOf id = .inProgress) :
    ClosesUp s.graph (cycleAt s.graph stack node id) := by
  obtain ⟨next, rest, hlist, hlast, hchain⟩ := h.cycleAt_eq hnode hid
  rw [hlist, Graph.paths]
  refine ⟨?_, by simp, List.isChain_map_of_isChain _ ?_ hchain⟩
  · rw [List.getLast?_map, List.getLast?_eq_getLast_of_ne_nil (by simp), hlast]
    rfl
  · rintro m n ⟨e, he, hin⟩
    exact ⟨m, e, hs.findNode?_eq_some_iff.mpr ⟨Graph.lt_of_producer he, rfl⟩, he,
      Graph.mem_paths.mpr ⟨n, hin, rfl⟩⟩

/-- An open edge that is met again needs itself. -/
theorem Trail.hasCycle (h : Trail s start stack node) (files : FileView) (hs : s.graph.Linked)
    (hnode : (s.graph.node node).producer = some id) (hid : s.visitOf id = .inProgress) :
    HasCycle files s start := by
  obtain ⟨next, rest, -, hlast, hchain⟩ := h.cycleAt_eq hnode hid
  obtain ⟨hfirst, hothers⟩ := List.isChain_cons_cons.mp hchain
  have hback : Relation.ReflTransGen s.graph.MadeFrom next node :=
    List.relationReflTransGen_of_exists_isChain_cons rest hothers
      (by rwa [List.getLast_cons (by simp)] at hlast)
  have hcircle : Relation.TransGen s.graph.MadeFrom node node := .head' hfirst hback
  obtain ⟨e, he, hneeds⟩ := needs_of_transGen files hs hcircle hnode
  obtain rfl : id = e := Option.some.inj (hnode.symm.trans he)
  refine ⟨id, ?_, hneeds⟩
  rcases Relation.reflTransGen_iff_eq_or_transGen.mp h.reached with rfl | hreached
  · exact ⟨id, hnode, .refl⟩
  · obtain ⟨first, hfirst, hneeds⟩ := needs_of_transGen files hs hreached hnode
    exact ⟨first, hfirst, hneeds.to_reflTransGen⟩

/-- A trail goes on to the inputs of the edge that makes its last node. -/
theorem Trail.deeper (h : Trail s start stack node) (honward : Onward (some id) s t)
    (hnode : (s.graph.node node).producer = some id) {input : NodeId}
    (hinput : input ∈ (t.graph.edge id).ins) : Trail t start (node :: stack) input := by
  have hgrows := honward.graph
  have hlast : t.graph.MadeFrom node input := ⟨id, (hgrows.producer node).trans hnode, hinput⟩
  have hreached : Relation.ReflTransGen t.graph.MadeFrom start node :=
    h.reached.lift (fun n => n) fun _ _ => hgrows.madeFrom
  refine ⟨hreached.tail hlast, ?_, fun e he => ?_⟩
  · exact List.isChain_cons_cons.mpr ⟨hlast, h.chain.imp fun _ _ => hgrows.madeFrom⟩
  · by_cases heq : e = id
    · exact ⟨node, List.mem_cons_self, heq ▸ (hgrows.producer node).trans hnode⟩
    have hown : some e ≠ some id := by simpa using heq
    -- other edges are open only if they were before
    have hbefore : s.visitOf e ≠ .unvisited := fun hfresh => honward.finished e hown hfresh he
    obtain ⟨m, hm, hprod⟩ := h.current e (honward.visitOf_eq hown hbefore ▸ he)
    exact ⟨m, List.mem_cons_of_mem _ hm, (hgrows.producer m).trans hprod⟩

end Trails

/-! ## Where a walk stops -/

/-- A walk from `start` stops because a file cannot be looked at, to which it has come, or which is
made together with one to which it has come. -/
inductive CannotLook (src : Sources) (s : Scan) (start : NodeId) : Error → Prop
  | intro {u m n fault} (course : Course src s u)
    (reached : Relation.ReflTransGen u.graph.MadeFrom start m)
    (beside : n = m ∨ ∃ e, m ∈ (u.graph.edge e).outs ∧ n ∈ (u.graph.edge e).outs)
    (fails : src.files.stat (u.graph.node n).path = .error fault) :
    CannotLook src s start (.cannotStat (u.graph.node n).path fault)

/-- A walk from `start` stops at an edge that is open. -/
structure MeetsOpen (start : NodeId) (err : Error) (t : Scan) (stack : List NodeId)
    (node : NodeId) (id : EdgeId) : Prop where
  trail : Trail t start stack node
  producer : (t.graph.node node).producer = some id
  current : t.visitOf id = .inProgress
  error : err = .dependencyCycle (cycleAt t.graph stack node id)

section Stops

variable {src : Sources} {id : EdgeId} {s t : Scan} {err : Error}

theorem scanInputs_error {visit : NodeId → Scanning Unit} {depth : Nat}
    (hvisit : ∀ {n u v}, u.graph.Linked → n < u.graph.nodes.size → u.unvisitedCount ≤ depth →
      visit n u = .ok () v → Learns src u v n)
    {inputs : List (NodeId × Bool)} {sum : InputSummary} (hs : s.graph.Linked)
    (hinputs : ∀ p ∈ inputs, p.1 < s.graph.nodes.size) (hdepth : s.unvisitedCount ≤ depth)
    (hid : s.visitOf id = .inProgress) (h : scanInputs visit id inputs sum s = .error err t) :
    ∃ u, ∃ p ∈ inputs, Collects src id s u ∧ visit p.1 u = .error err t := by
  induction inputs generalizing s sum with
  | nil => exact absurd h Sequence.pure_ne_error
  | cons p inputs ih =>
    rcases Sequence.bind_eq_error.mp h with hfirst | ⟨_, u, hfirst, -⟩
    · exact ⟨s, p, List.mem_cons_self, .refl src hid, hfirst⟩
    rw [scanInputs_cons p.1 p.2 inputs sum hfirst] at h
    have hgather := (hvisit hs (hinputs p List.mem_cons_self) hdepth hfirst).collects hid
    have hsofar := hgather.trans (collects_held p.1 hgather.visit)
    obtain ⟨w, q, hq, hrest, hstop⟩ := ih (hsofar.course.linked hs)
      (fun q hq => hsofar.lt (hinputs q (List.mem_cons_of_mem _ hq)))
      (Nat.le_trans hsofar.unvisitedCount_le hdepth) hsofar.visit h
    exact ⟨w, q, List.mem_cons_of_mem _ hq, hsofar.trans hrest, hstop⟩

/-- Scanning an edge stops where a file cannot be looked at or an input cannot be scanned. -/
theorem scanEdge_error {visit : NodeId → Scanning Unit} {depth : Nat}
    (hvisit : ∀ {n u v}, u.graph.Linked → n < u.graph.nodes.size → u.unvisitedCount ≤ depth →
      visit n u = .ok () v → Learns src u v n)
    (hs : s.graph.Linked) (hid : s.visitOf id = .unvisited) (hlt : id < s.graph.edges.size)
    (hdepth : s.unvisitedCount ≤ depth + 1) (h : scanEdge src visit id s = .error err t) :
    (∃ out ∈ (s.graph.edge id).outs, ∃ fault, err = .cannotStat (s.graph.node out).path fault ∧
      src.files.stat (s.graph.node out).path = .error fault) ∨
    ∃ u, ∃ input ∈ (u.graph.edge id).ins,
      Course src s u ∧ Onward (some id) s u ∧ u.unvisitedCount ≤ depth ∧
        visit input u = .error err t := by
  rcases Sequence.bind_eq_error.mp h with h | ⟨_, _, hopen, h⟩
  · cases h
  obtain rfl := (EStateM.Result.ok.inj hopen).2
  rw [Sequence.get_bind] at h
  rcases Sequence.bind_eq_error.mp h with h | ⟨_, u, hstat, h⟩
  · obtain ⟨out, hout, hcause⟩ := statAll_error h
    exact .inl ⟨out, hout, hcause⟩
  rcases Sequence.bind_eq_error.mp h with h | ⟨_, v, hload, h⟩
  · exact absurd h loadDepsOnce_ne_error
  have hopens := open_ok hid hstat hload
  have honward := hopens.onward hs
  have hv := (hopens.adds hs).linked
  have hcount : v.unvisitedCount ≤ depth := by
    have hless := honward.unvisitedCount_lt hlt hid (by rw [hopens.visitOf_eq]; simp)
    omega
  rw [Sequence.get_bind] at h
  rcases Sequence.bind_eq_error.mp h with h | ⟨sum, w, -, h⟩
  · obtain ⟨u, p, hp, hgather, hstop⟩ := scanInputs_error hvisit hv
      (fun p hp => hv.lt_of_in (mem_inputs hp)) hcount hopens.visitOf_eq h
    exact .inr ⟨u, p.1, hgather.edge ▸ mem_inputs hp, .head (.opens hopens) hgather.course,
      honward.trans hgather.onward, Nat.le_trans hgather.unvisitedCount_le hcount, hstop⟩
  rcases Sequence.bind_eq_error.mp h with h | ⟨_, _, -, h⟩
  · cases h
  rcases Sequence.bind_eq_error.mp h with h | ⟨_, _, -, h⟩
  · exact absurd h judge_ne_error
  · cases h

/-- What a step of the walk is that stops. -/
theorem visit_error {depth : Nat} {stack : List NodeId} {n : NodeId}
    (h : visit src depth stack n s = .error err t) :
    ((s.graph.node n).producer = none ∧ scanLeaf src.files n s = .error err t) ∨
      ∃ e, (s.graph.node n).producer = some e ∧
        (s.visitOf e = .inProgress ∧ t = s ∧
            err = .dependencyCycle (cycleAt s.graph stack n e) ∨
          s.visitOf e = .unvisited ∧ ∃ d, depth = d + 1 ∧
            scanEdge src (visit src d (n :: stack)) e s = .error err t) := by
  rw [visit.eq_def] at h
  dsimp only at h
  rw [Sequence.get_bind] at h
  cases hn : (s.graph.node n).producer with
  | none =>
    rw [hn] at h
    exact .inl ⟨rfl, h⟩
  | some e =>
    rw [hn] at h
    refine .inr ⟨e, rfl, ?_⟩
    dsimp only at h
    cases he : (s.survey.edge e).visit with
    | done =>
      rw [he] at h
      exact absurd h Sequence.pure_ne_error
    | inProgress =>
      rw [he] at h
      obtain ⟨rfl, rfl⟩ := Sequence.throw_eq_error.mp h
      exact .inl ⟨he, rfl, rfl⟩
    | unvisited =>
      rw [he] at h
      cases depth with
      | zero => exact absurd h Sequence.pure_ne_error
      | succ d => exact .inr ⟨he, d, rfl, h⟩

/-- What stops a walk later on stops it. -/
theorem CannotLook.of_course {u : Scan} {start : NodeId} (h : CannotLook src u start err)
    (hcourse : Course src s u) : CannotLook src s start err := by
  cases h with
  | intro hrest hreached hbeside hfault => exact .intro (hcourse.trans hrest) hreached hbeside hfault

theorem Trail.cannotLook {start n : NodeId} {stack : List NodeId} (h : Trail s start stack n)
    (hleaf : scanLeaf src.files n s = .error err t) : CannotLook src s start err := by
  obtain ⟨fault, rfl, hfault⟩ := scanLeaf_error hleaf
  exact .intro .refl h.reached (.inl rfl) hfault

/-- A walk stops where a file cannot be looked at or an open edge is met again. -/
theorem visit_stops {depth : Nat} {start n : NodeId} {stack : List NodeId} (hs : s.graph.Linked)
    (htrail : Trail s start stack n) (hdepth : s.unvisitedCount ≤ depth)
    (h : visit src depth stack n s = .error err t) :
    CannotLook src s start err ∨
      Course src s t ∧ ∃ stack' node id, MeetsOpen start err t stack' node id := by
  induction depth generalizing s stack n with
  | zero =>
    rcases visit_error h with ⟨-, hleaf⟩ | ⟨e, hn, ⟨he, rfl, hcycle⟩ | ⟨-, d, hd, -⟩⟩
    · exact .inl (htrail.cannotLook hleaf)
    · exact .inr ⟨.refl, stack, n, e, htrail, hn, he, hcycle⟩
    · cases hd
  | succ depth ih =>
    rcases visit_error h with ⟨-, hleaf⟩ | ⟨e, hn, ⟨he, rfl, hcycle⟩ | ⟨he, d, hd, hedge⟩⟩
    · exact .inl (htrail.cannotLook hleaf)
    · exact .inr ⟨.refl, stack, n, e, htrail, hn, he, hcycle⟩
    obtain rfl : depth = d := Nat.succ.inj hd
    rcases scanEdge_error visit_learns hs he (hs.edge_lt_of_out hn) hdepth hedge with
      ⟨out, hout, fault, rfl, hfault⟩ | ⟨u, input, hinput, hcourse, honward, hcount, hstop⟩
    · exact .inl (.intro .refl htrail.reached
        (.inr ⟨e, (hs.producer_iff n e).mp hn, hout⟩) hfault)
    rcases ih (hcourse.linked hs) (htrail.deeper honward hn hinput) hcount hstop with
      hlook | ⟨hrest, hmeets⟩
    · exact .inl (hlook.of_course hcourse)
    · exact .inr ⟨hcourse.trans hrest, hmeets⟩

/-- A scan that is at no edge stops only at a file that cannot be looked at or at a cycle. -/
theorem target_stops {start : NodeId} (hs : s.graph.Linked)
    (hopen : ∀ e, s.visitOf e ≠ .inProgress) (h : target src start s = .error err t) :
    CannotLook src s start err ∨
      Course src s t ∧ ∃ stack node id, MeetsOpen start err t stack node id := by
  have htrail : Trail s start [] start :=
    ⟨.refl, List.isChain_singleton _, fun e he => absurd he (hopen e)⟩
  rw [target, Sequence.get_bind] at h
  exact visit_stops hs htrail (s.graph.countEdges_le_size _) h

/-- The edges that a target needs contain a cycle if the scan stops at an open edge. -/
theorem MeetsOpen.hasCycle {start node : NodeId} {stack : List NodeId}
    (h : MeetsOpen start err t stack node id) (hs : s.graph.Linked) (hcourse : Course src s t) :
    HasCycle src.files s start := by
  obtain ⟨e, ⟨first, hfirst, hreached⟩, hcircle⟩ :=
    h.trail.hasCycle src.files (hcourse.linked hs) h.producer h.current
  have hneeds : Needs src.files t = Needs src.files s :=
    funext₂ fun e d => propext (hcourse.needs_iff hs e d)
  rw [hneeds] at hreached hcircle
  rw [(hcourse.grows hs).producer] at hfirst
  exact ⟨e, ⟨first, hfirst, hreached⟩, hcircle⟩

end Stops

/-! ## What a scan is done with -/

section Done

variable {src : Sources} {s t : Scan} {e d : EdgeId}

/-- The edges that an edge needs which a scan is done with feed it, and the scan is done with them.
-/
theorem Course.done_of_needs (h : Course src s t) (ht : Orderly src.log t) (hs : s.graph.Linked)
    (hfresh : s.visitOf e = .unvisited) (he : t.visitOf e = .done)
    (hneeds : Needs src.files s e d) : t.graph.Feeds d e ∧ t.visitOf d = .done := by
  obtain ⟨path, n, huses, hfind, hprod⟩ := hneeds
  have hgrows := h.grows hs
  obtain ⟨m, hm, hpath⟩ := Graph.mem_paths.mp
    ((h.mem_paths_ins_iff hs hfresh (by rw [he]; simp) path).mpr huses)
  have hfindm := ht.linked.findNode?_eq_some_iff.mpr ⟨ht.linked.lt_of_in hm, hpath⟩
  obtain rfl : n = m := Option.some.inj ((hgrows.findNode? hfind).symm.trans hfindm)
  have hmakes : (t.graph.node n).producer = some d := (hgrows.producer n).trans hprod
  exact ⟨⟨n, hm, hmakes⟩, (known_of_producer hmakes).mp ((ht.closed e he).known n hm)⟩

/-- A scan that is done with an edge is done with all that the edge needs. -/
theorem Course.done_of_reflTransGen (h : Course src s t) (ht : Orderly src.log t)
    (hs : s.graph.Linked) (hfresh : ∀ e, s.visitOf e = .unvisited) (he : t.visitOf e = .done)
    (hneeds : Relation.ReflTransGen (Needs src.files s) e d) : t.visitOf d = .done := by
  induction hneeds with
  | refl => exact he
  | tail _ hstep ih => exact (h.done_of_needs ht hs (hfresh _) ih hstep).2

/-- An edge that a scan is done with does not need itself. -/
theorem Course.not_needs_self (h : Course src s t) (ht : Orderly src.log t) (hs : s.graph.Linked)
    (hfresh : ∀ e, s.visitOf e = .unvisited) (he : t.visitOf e = .done) :
    ¬Relation.TransGen (Needs src.files s) e e := by
  have hacc := (ht.closed e he).founded
  induction hacc with
  | intro e _ ih =>
    intro hcircle
    obtain ⟨d, hfirst, hback⟩ := Relation.TransGen.head'_iff.mp hcircle
    obtain ⟨hfeeds, hd⟩ := h.done_of_needs ht hs (hfresh e) he hfirst
    exact ih d hfeeds hd (.tail' hback hfirst)

end Done

/-! ## Depth -/

/-- The walk with something else to be done where depth ends. -/
def visitOr (src : Sources) (cut : NodeId → Scanning Unit) :
    (depth : Nat) → (stack : List NodeId) → NodeId → Scanning Unit
  | depth, stack, node => do
    let s ← get
    match (s.graph.node node).producer with
    | none => scanLeaf src.files node
    | some id =>
      match (s.survey.edge id).visit with
      | .done => return ()
      | .inProgress => throw (.dependencyCycle (cycleAt s.graph stack node id))
      | .unvisited =>
        match depth with
        | 0 => cut node
        | depth + 1 => scanEdge src (visitOr src cut depth (node :: stack)) id

section Depth

variable {src : Sources} {id : EdgeId} {s t : Scan}

/-- Inputs are scanned alike by walks that agree wherever scanning them leads. -/
theorem scanInputs_congr {visit visit' : NodeId → Scanning Unit} {depth : Nat}
    (hvisit : ∀ {n u v}, u.graph.Linked → n < u.graph.nodes.size → u.unvisitedCount ≤ depth →
      visit n u = .ok () v → Learns src u v n)
    (hsame : ∀ {n u}, u.graph.Linked → n < u.graph.nodes.size → u.unvisitedCount ≤ depth →
      visit' n u = visit n u)
    {inputs : List (NodeId × Bool)} {sum : InputSummary} (hs : s.graph.Linked)
    (hinputs : ∀ p ∈ inputs, p.1 < s.graph.nodes.size) (hdepth : s.unvisitedCount ≤ depth)
    (hid : s.visitOf id = .inProgress) :
    scanInputs visit' id inputs sum s = scanInputs visit id inputs sum s := by
  induction inputs generalizing s sum with
  | nil => rfl
  | cons p inputs ih =>
    have hlt := hinputs p List.mem_cons_self
    have hfirst := hsame hs hlt hdepth
    cases hresult : visit p.1 s with
    | error e t =>
      rw [hresult] at hfirst
      rw [scanInputs, scanInputs, Sequence.bind_of_error _ hresult,
        Sequence.bind_of_error _ hfirst]
    | ok a u =>
      rw [hresult] at hfirst
      have hgather := (hvisit hs hlt hdepth hresult).collects hid
      have hsofar := hgather.trans (collects_held p.1 hgather.visit)
      rw [scanInputs_cons p.1 p.2 inputs sum hresult, scanInputs_cons p.1 p.2 inputs sum hfirst]
      exact ih (hsofar.course.linked hs)
        (fun q hq => hsofar.lt (hinputs q (List.mem_cons_of_mem _ hq)))
        (Nat.le_trans hsofar.unvisitedCount_le hdepth) hsofar.visit

theorem scanEdge_congr {visit visit' : NodeId → Scanning Unit} (depth : Nat)
    (hvisit : ∀ {n u v}, u.graph.Linked → n < u.graph.nodes.size → u.unvisitedCount ≤ depth →
      visit n u = .ok () v → Learns src u v n)
    (hsame : ∀ {n u}, u.graph.Linked → n < u.graph.nodes.size → u.unvisitedCount ≤ depth →
      visit' n u = visit n u)
    (hs : s.graph.Linked) (hid : s.visitOf id = .unvisited) (hlt : id < s.graph.edges.size)
    (hdepth : s.unvisitedCount ≤ depth + 1) :
    scanEdge src visit' id s = scanEdge src visit id s := by
  unfold scanEdge
  refine Sequence.bind_congr fun _ _ hopen => ?_
  obtain rfl := (EStateM.Result.ok.inj hopen).2
  rw [Sequence.get_bind, Sequence.get_bind]
  refine Sequence.bind_congr fun _ u hstat => Sequence.bind_congr fun _ v hload => ?_
  have hopens := open_ok hid hstat hload
  have hv := (hopens.adds hs).linked
  have hcount : v.unvisitedCount ≤ depth := by
    have hless := (hopens.onward hs).unvisitedCount_lt hlt hid (by rw [hopens.visitOf_eq]; simp)
    omega
  rw [Sequence.get_bind, Sequence.get_bind]
  exact Sequence.bind_congr_left (scanInputs_congr hvisit hsame hv
    (fun p hp => hv.lt_of_in (mem_inputs hp)) hcount hopens.visitOf_eq)

/-- Walks come out the same if they do where they come to an edge for the first time. -/
private theorem visitOr_eq_of_fresh {cut : NodeId → Scanning Unit} {depth depth' : Nat}
    {stack : List NodeId} {n : NodeId}
    (h : ∀ e, (s.graph.node n).producer = some e → s.visitOf e = .unvisited →
      ∃ d d', depth = d + 1 ∧ depth' = d' + 1 ∧
        scanEdge src (visitOr src cut d (n :: stack)) e s =
          scanEdge src (visit src d' (n :: stack)) e s) :
    visitOr src cut depth stack n s = visit src depth' stack n s := by
  rw [visitOr.eq_def, visit.eq_def]
  dsimp only
  rw [Sequence.get_bind, Sequence.get_bind]
  cases hn : (s.graph.node n).producer with
  | none => rfl
  | some e =>
    dsimp only
    cases he : (s.survey.edge e).visit with
    | done => rfl
    | inProgress => rfl
    | unvisited =>
      obtain ⟨d, d', rfl, rfl, hsame⟩ := h e hn he
      exact hsame

/-- A walk that has depth for all edges that it may come to never gets to where depth ends. -/
theorem visitOr_eq {cut : NodeId → Scanning Unit} {depth depth' : Nat} {stack : List NodeId}
    {n : NodeId} (hs : s.graph.Linked) (hdepth : s.unvisitedCount ≤ depth)
    (hdepth' : s.unvisitedCount ≤ depth') :
    visitOr src cut depth stack n s = visit src depth' stack n s := by
  induction depth generalizing s stack n depth' with
  | zero =>
    refine visitOr_eq_of_fresh fun e hn he => ?_
    have hpos := s.unvisitedCount_pos (hs.edge_lt_of_out hn) he
    omega
  | succ depth ih =>
    refine visitOr_eq_of_fresh fun e hn he => ?_
    have hlt := hs.edge_lt_of_out hn
    have hpos := s.unvisitedCount_pos hlt he
    obtain ⟨d, rfl⟩ : ∃ d, depth' = d + 1 := Nat.exists_eq_succ_of_ne_zero (by omega)
    refine ⟨depth, d, rfl, rfl, scanEdge_congr (min depth d) ?_ ?_ hs he hlt (by omega)⟩
    · exact fun hu hn hcount => visit_learns hu hn (by omega)
    · exact fun hu _ hcount => ih hu (by omega) (by omega)

end Depth

/-! ## The outcome -/

section Outcome

variable {src : Sources} {s : Scan}

/-- A scan of a graph about which nothing is known, with files that can all be looked at, ends: it
never runs out of depth. It stops at a cycle exactly if the edges that its target needs contain one,
and the paths that it reports then close up. If there is no cycle, it gets done with all edges that
its target needs. -/
theorem cycles_are_found {start : NodeId} (hg : s.graph.Linked)
    (hstart : start < s.graph.nodes.size) (hedges : ∀ e, s.visitOf e = .unvisited)
    (hstat : ∀ path, ∃ mtime, src.files.stat path = .ok mtime) :
    (∀ cut depth, s.graph.edges.size ≤ depth →
      visitOr src cut depth [] start s = target src start s) ∧
    ((∃ paths t, target src start s = .error (.dependencyCycle paths) t) ↔
      HasCycle src.files s start) ∧
    (∀ err t, target src start s = .error err t →
      ∃ paths, err = .dependencyCycle paths ∧ ClosesUp t.graph paths) ∧
    (¬HasCycle src.files s start → ∃ t, target src start s = .ok () t ∧
      ∀ e, Reaches src.files s start e → t.visitOf e = .done) := by
  -- a scan that stops has met an open edge, which needs itself
  have hstops : ∀ err t, target src start s = .error err t →
      HasCycle src.files s start ∧ ∃ paths, err = .dependencyCycle paths ∧
        ClosesUp t.graph paths := by
    intro err t h
    rcases target_stops hg (fun e => by rw [hedges]; simp) h with hlook | ⟨hcourse, hmeets⟩
    · obtain ⟨-, -, -, hfault⟩ := hlook
      obtain ⟨mtime, hok⟩ := hstat _
      rw [hok] at hfault
      cases hfault
    · obtain ⟨stack, node, id, hmeets⟩ := hmeets
      refine ⟨hmeets.hasCycle hg hcourse, _, hmeets.error, ?_⟩
      exact hmeets.trail.closesUp (hcourse.linked hg) hmeets.producer hmeets.current
  -- a scan that succeeds is done with all that it reached, and nothing in that needs itself
  have hsucceeds : ∀ t, target src start s = .ok () t →
      ∀ e, Reaches src.files s start e →
        t.visitOf e = .done ∧ ¬Relation.TransGen (Needs src.files s) e e := by
    rintro t h e ⟨first, hfirst, hneeds⟩
    have hlearns := target_learns hg hstart h
    have ht := hlearns.course.orderly (.of_fresh src.log hg hedges)
    have hdone : t.visitOf first = .done :=
      (known_of_producer ((hlearns.onward.graph.producer start).trans hfirst)).mp hlearns.known
    have he := hlearns.course.done_of_reflTransGen ht hg hedges hdone hneeds
    exact ⟨he, hlearns.course.not_needs_self ht hg hedges he⟩
  refine ⟨fun cut depth hdepth => ?_, ⟨?_, ?_⟩, fun err t h => (hstops err t h).2, ?_⟩
  · rw [target, Sequence.get_bind]
    have hcount : s.unvisitedCount ≤ s.graph.edges.size := s.graph.countEdges_le_size _
    exact visitOr_eq hg (hcount.trans hdepth) hcount
  · rintro ⟨paths, t, h⟩
    exact (hstops _ t h).1
  · rintro ⟨e, hreached, hcircle⟩
    cases h : target src start s with
    | ok _ t => exact absurd hcircle (hsucceeds t h e hreached).2
    | error err t =>
      obtain ⟨-, paths, rfl, -⟩ := hstops err t h
      exact ⟨paths, t, rfl⟩
  · intro hnone
    cases h : target src start s with
    | ok _ t => exact ⟨t, rfl, fun e he => (hsucceeds t h e he).1⟩
    | error err t => exact absurd (hstops err t h).1 hnone

/-- Two edges that need each other: one makes `a` and `a.log` from `b`, and the other one, which
makes `b`, waits for `a.log`. -/
def ring : Graph where
  scopes := .initial
  nodes := #[⟨"a", some 0, [], [], false⟩, ⟨"a.log", some 0, [1], [], false⟩,
    ⟨"b", some 1, [0], [], false⟩]
  edges := #[⟨.phony, none, Scopes.root, [0], [1], [2], [], [], [], none⟩,
    ⟨.phony, none, Scopes.root, [2], [], [], [], [1], [], none⟩]
  rules := #[]
  pools := #[]
  defaults := []

theorem cycles_are_found_ring :
    let src : Sources := ⟨⟨fun _ => .ok none, fun _ => .error .missing⟩, .inMemory⟩
    ∃ paths t, target src 0 (.start ring default) = .error (.dependencyCycle paths) t ∧
      ClosesUp t.graph paths := by
  intro src
  have hfresh : ∀ e, (Scan.start ring default).visitOf e = .unvisited :=
    fun e => congrArg EdgeState.visit (Table.get_default e)
  obtain ⟨-, hiff, hreport, -⟩ := @cycles_are_found src (.start ring default) 0 (by decide)
    (by decide) hfresh fun _ => ⟨none, rfl⟩
  have hthere : Needs src.files (.start ring default) 0 1 :=
    ⟨"b", 2, .inl (List.mem_singleton_self _), by cbv, rfl⟩
  have hback : Needs src.files (.start ring default) 1 0 :=
    ⟨"a.log", 1, .inl (List.mem_singleton_self _), by cbv, rfl⟩
  obtain ⟨paths, t, hscan⟩ := hiff.mpr ⟨0, ⟨0, rfl, .refl⟩, .tail (.single hthere) hback⟩
  obtain ⟨_, ⟨⟩, hcloses⟩ := hreport _ t hscan
  exact ⟨paths, t, hscan, hcloses⟩

end Outcome

end Scan

end Rebuild
