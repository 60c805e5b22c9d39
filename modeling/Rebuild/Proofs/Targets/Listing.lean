import Rebuild.Proofs.Targets.Defaults

/-!
# Dependencies first

The edges that files depend on are found by walking inwards, and an edge takes its place in the
order when the walk leaves it again. `Visits` is that walk without a bound on its depth. It ends
because each step inwards meets one more edge, and what it adds to the order is described by `Adds`:
the edges that are found, each once, and none of them before an edge that feeds it unless the two
are on a circle.
-/

namespace Rebuild

open Relation (ReflTransGen TransGen)

namespace Reach

/-- The walk to one node after the other, and inwards from each edge that it meets for the first
time. -/
inductive Visits (g : Graph) : List NodeId → Walk → Walk → Prop where
  | done {w} : Visits g [] w w
  | source {n rest w w'} : (g.node n).producer = none → Visits g rest w w' →
      Visits g (n :: rest) w w'
  | again {n rest w w' e} : (g.node n).producer = some e → e ∈ w.met → Visits g rest w w' →
      Visits g (n :: rest) w w'
  | inwards {n rest w u w' e} : (g.node n).producer = some e → e ∉ w.met →
      Visits g (g.edge e).ins ⟨e :: w.met, w.order⟩ u → Visits g rest ⟨u.met, u.order ++ [e]⟩ w' →
      Visits g (n :: rest) w w'

variable {g : Graph} {nodes : List NodeId} {w w' : Walk} {new : List EdgeId}

/-- A walk can go on in one way only. -/
theorem Visits.unique {u : Walk} (h : Visits g nodes w w') (h' : Visits g nodes w u) : w' = u := by
  induction h generalizing u with
  | done => cases h'; rfl
  | source hprod _ ih =>
    cases h' with
    | source _ h' => exact ih h'
    | again hprod' | inwards hprod' => rw [hprod] at hprod'; cases hprod'
  | again hprod hmet _ ih =>
    cases h' with
    | source hprod' => rw [hprod] at hprod'; cases hprod'
    | again _ _ h' => exact ih h'
    | inwards hprod' hmet' => rw [hprod] at hprod'; cases hprod'; exact absurd hmet hmet'
  | inwards hprod hmet _ _ ihIns ihRest =>
    cases h' with
    | source hprod' => rw [hprod] at hprod'; cases hprod'
    | again hprod' hmet' => rw [hprod] at hprod'; cases hprod'; exact absurd hmet' hmet
    | inwards hprod' _ hins hrest =>
      rw [hprod] at hprod'
      cases hprod'
      obtain rfl := ihIns hins
      exact ihRest hrest

theorem Visits.met_subset (h : Visits g nodes w w') : w.met ⊆ w'.met := by
  induction h with
  | done => exact List.Subset.refl _
  | source _ _ ih => exact ih
  | again _ _ _ ih => exact ih
  | inwards _ _ _ _ ihIns ihRest => exact fun d hd => ihRest (ihIns (List.mem_cons_of_mem _ hd))

/-! ## The walk ends -/

/-- How many edges the walk has not met. -/
def unmetCount (g : Graph) (w : Walk) : Nat :=
  g.countEdges fun e => e ∉ w.met

/-- As deep as there are edges that were not met, the walk is not cut short. -/
theorem visits_foldl (hg : ∀ n e, (g.node n).producer = some e → e < g.edges.size) {depth : Nat}
    (hdepth : unmetCount g w ≤ depth) (nodes : List NodeId) :
    Visits g nodes w (nodes.foldl (visit g depth) w) := by
  induction depth generalizing w nodes with
  | zero =>
    induction nodes with
    | nil => exact .done
    | cons n rest ih =>
      rw [List.foldl_cons, visit]
      cases hprod : (g.node n).producer with
      | none => exact .source hprod ih
      | some e =>
        have hmet : e ∈ w.met := by
          by_contra hmet
          exact absurd (Graph.countEdges_pos (p := (· ∉ w.met)) (hg n e hprod) hmet) (by
            rw [unmetCount] at hdepth
            omega)
        simp only [List.contains_iff_mem.mpr hmet, if_true]
        exact .again hprod hmet ih
  | succ depth ihDepth =>
    induction nodes generalizing w with
    | nil => exact .done
    | cons n rest ih =>
      rw [List.foldl_cons, visit]
      cases hprod : (g.node n).producer with
      | none => exact .source hprod (ih hdepth)
      | some e =>
        by_cases hmet : e ∈ w.met
        · simp only [List.contains_iff_mem.mpr hmet, if_true]
          exact .again hprod hmet (ih hdepth)
        · simp only [List.contains_iff_mem, hmet, if_false]
          have hless : unmetCount g ⟨e :: w.met, w.order⟩ < unmetCount g w :=
            Graph.countEdges_lt rfl (fun d hd hw => hd (List.mem_cons_of_mem e hw)) (hg n e hprod)
              (not_not_intro List.mem_cons_self) hmet
          have hins := ihDepth (w := ⟨e :: w.met, w.order⟩) (by omega) (g.edge e).ins
          have hle : unmetCount g _ ≤ unmetCount g w := Graph.countEdges_mono rfl
            fun d hd hw => hd (hins.met_subset (List.mem_cons_of_mem e hw))
          exact .inwards hprod hmet hins (ih (Nat.le_trans hle hdepth))

/-! ## What the walk adds -/

/-- The edges that walking to nodes adds to the order. -/
structure Adds (g : Graph) (nodes : List NodeId) (w w' : Walk) (new : List EdgeId) : Prop where
  order : w'.order = w.order ++ new
  met : ∀ e, e ∈ w'.met ↔ e ∈ w.met ∨ e ∈ new
  fresh : ∀ e ∈ new, e ∉ w.met
  nodup : new.Nodup
  reached : ∀ e ∈ new, g.Reached nodes e
  producers : ∀ n ∈ nodes, ∀ e, (g.node n).producer = some e → e ∈ w'.met
  feeders : ∀ e ∈ new, ∀ p, g.Feeds p e → p ∈ w'.met
  sorted : new.Pairwise fun d e => g.Feeds e d → g.OnCycle d

namespace Adds

theorem skip {n : NodeId} {rest : List NodeId} (h : Adds g rest w w' new)
    (hn : ∀ e, (g.node n).producer = some e → e ∈ w.met) : Adds g (n :: rest) w w' new where
  order := h.order
  met := h.met
  fresh := h.fresh
  nodup := h.nodup
  reached e he := by
    obtain ⟨m, hm, hreach⟩ := h.reached e he
    exact ⟨m, List.mem_cons_of_mem n hm, hreach⟩
  producers := List.forall_mem_cons.mpr
    ⟨fun e he => (h.met e).mpr (.inl (hn e he)), h.producers⟩
  feeders := h.feeders
  sorted := h.sorted

/-- An edge comes after all that was found on the way inwards from it. -/
theorem close {e : EdgeId} (h : Adds g (g.edge e).ins ⟨e :: w.met, w.order⟩ w' new)
    (he : e ∉ w.met) {n : NodeId} (hn : (g.node n).producer = some e) :
    Adds g [n] w ⟨w'.met, w'.order ++ [e]⟩ (new ++ [e]) where
  order := by simp [h.order]
  met d := by simp [h.met, or_assoc, or_comm, or_left_comm]
  fresh d hd := by
    rcases List.mem_append.mp hd with hd | hd
    · exact fun hw => h.fresh d hd (List.mem_cons_of_mem e hw)
    · rwa [List.mem_singleton.mp hd]
  nodup := by
    refine List.nodup_append.mpr ⟨h.nodup, by simp, fun d hd d' hd' heq => h.fresh d hd ?_⟩
    rw [heq, List.mem_singleton.mp hd']
    exact List.mem_cons_self
  reached d hd := by
    refine ⟨n, by simp, e, hn, ?_⟩
    rcases List.mem_append.mp hd with hd | hd
    · obtain ⟨m, hm, first, hfirst, hreach⟩ := h.reached d hd
      exact hreach.tail ⟨m, hm, hfirst⟩
    · rw [List.mem_singleton.mp hd]
  producers m hm d hd := by
    rw [List.mem_singleton.mp hm, hn] at hd
    cases hd
    exact (h.met e).mpr (.inl List.mem_cons_self)
  feeders d hd p hp := by
    rcases List.mem_append.mp hd with hd | hd
    · exact h.feeders d hd p hp
    · rw [List.mem_singleton.mp hd] at hp
      obtain ⟨m, hm, hprod⟩ := hp
      exact h.producers m hm p hprod
  sorted := by
    refine List.pairwise_append.mpr ⟨h.sorted, by simp, fun d hd e' he' hfeeds => ?_⟩
    rw [List.mem_singleton.mp he'] at hfeeds
    -- the edge was found from an input of `e`, so it leads to `e`, which feeds it
    obtain ⟨m, hm, first, hfirst, hreach⟩ := h.reached d hd
    exact (TransGen.tail' hreach ⟨m, hm, hfirst⟩).tail hfeeds

theorem append {n : NodeId} {rest : List NodeId} {u : Walk} {more : List EdgeId}
    (h : Adds g [n] w u new) (h' : Adds g rest u w' more) : Adds g (n :: rest) w w' (new ++ more)
    where
  order := by rw [h'.order, h.order, List.append_assoc]
  met e := by rw [h'.met, h.met, List.mem_append, or_assoc]
  fresh e he := by
    rcases List.mem_append.mp he with he | he
    · exact h.fresh e he
    · exact fun hw => h'.fresh e he ((h.met e).mpr (.inl hw))
  nodup := List.nodup_append.mpr ⟨h.nodup, h'.nodup, fun e he e' he' heq =>
    h'.fresh e' he' ((h.met e').mpr (.inr (heq ▸ he)))⟩
  reached e he := by
    rcases List.mem_append.mp he with he | he
    · obtain ⟨m, hm, hreach⟩ := h.reached e he
      exact ⟨m, by simp [List.mem_singleton.mp hm], hreach⟩
    · obtain ⟨m, hm, hreach⟩ := h'.reached e he
      exact ⟨m, List.mem_cons_of_mem n hm, hreach⟩
  producers := List.forall_mem_cons.mpr
    ⟨fun e he => (h'.met e).mpr (.inl (h.producers n (by simp) e he)), h'.producers⟩
  feeders e he p hp := by
    rcases List.mem_append.mp he with he | he
    · exact (h'.met p).mpr (.inl (h.feeders e he p hp))
    · exact h'.feeders e he p hp
  -- what feeds an edge that was left was met before it was left
  sorted := List.pairwise_append.mpr ⟨h.sorted, h'.sorted, fun d hd e he hfeeds =>
    absurd (h.feeders d hd e hfeeds) (h'.fresh e he)⟩

end Adds

theorem Visits.adds (h : Visits g nodes w w') : ∃ new, Adds g nodes w w' new := by
  induction h with
  | @done w => exact ⟨[], by simp, by simp, by simp, .nil, by simp, by simp, by simp, .nil⟩
  | source hprod _ ih =>
    obtain ⟨new, hnew⟩ := ih
    exact ⟨new, hnew.skip (by simp [hprod])⟩
  | again hprod hmet _ ih =>
    obtain ⟨new, hnew⟩ := ih
    exact ⟨new, hnew.skip fun e he => by rw [hprod] at he; cases he; exact hmet⟩
  | inwards hprod hmet _ _ ihIns ihRest =>
    obtain ⟨new, hnew⟩ := ihIns
    obtain ⟨more, hmore⟩ := ihRest
    exact ⟨_, (hnew.close hmet hprod).append hmore⟩

/-! ## The order of the edges -/

section Order

variable {targets : List NodeId}

/-- The walk from targets ends, and leaves the edges in their order. -/
theorem visits_edges (hg : ∀ n e, (g.node n).producer = some e → e < g.edges.size)
    (targets : List NodeId) : ∃ met, Visits g targets ⟨[], []⟩ ⟨met, edges g targets⟩ :=
  ⟨_, visits_foldl hg (g.countEdges_le_size _) targets⟩

theorem adds_edges (hg : ∀ n e, (g.node n).producer = some e → e < g.edges.size)
    (targets : List NodeId) :
    ∃ met, Adds g targets ⟨[], []⟩ ⟨met, edges g targets⟩ (edges g targets) := by
  obtain ⟨met, hvisits⟩ := visits_edges hg targets
  obtain ⟨new, hnew⟩ := hvisits.adds
  obtain rfl : edges g targets = new := hnew.order
  exact ⟨met, hnew⟩

variable (hg : ∀ n e, (g.node n).producer = some e → e < g.edges.size)
include hg

theorem nodup_edges (targets : List NodeId) : (edges g targets).Nodup :=
  have ⟨_, hadds⟩ := adds_edges hg targets
  hadds.nodup

theorem mem_edges_of_feeds {p e : EdgeId} (he : e ∈ edges g targets) (hp : g.Feeds p e) :
    p ∈ edges g targets := by
  obtain ⟨met, hadds⟩ := adds_edges hg targets
  simpa using (hadds.met p).mp (hadds.feeders e he p hp)

theorem mem_edges_iff {e : EdgeId} : e ∈ edges g targets ↔ g.Reached targets e := by
  obtain ⟨met, hadds⟩ := adds_edges hg targets
  refine ⟨hadds.reached e, ?_⟩
  rintro ⟨n, hn, first, hfirst, hreach⟩
  induction hreach using ReflTransGen.head_induction_on with
  | refl => simpa using (hadds.met first).mp (hadds.producers n hn first hfirst)
  | head hfeeds _ ih => exact mem_edges_of_feeds hg ih hfeeds

/-- What feeds an edge stands before it, unless the edge is on a circle. -/
theorem mem_before_of_feeds {before after : List EdgeId} {p e : EdgeId}
    (hedges : edges g targets = before ++ e :: after) (he : ¬g.OnCycle e) (hp : g.Feeds p e) :
    p ∈ before := by
  obtain ⟨met, hadds⟩ := adds_edges hg targets
  have hmem : p ∈ before ++ e :: after :=
    hedges ▸ mem_edges_of_feeds hg (by simp [hedges]) hp
  have hsorted := hadds.sorted
  rw [hedges, List.pairwise_append, List.pairwise_cons] at hsorted
  rcases List.mem_append.mp hmem with hbefore | hafter
  · exact hbefore
  rcases List.mem_cons.mp hafter with rfl | hafter
  · exact absurd (.single hp) he
  · exact absurd (hsorted.2.1.1 p hafter hp) he

/-- The same of all that leads to an edge, if nothing that is found is on a circle. -/
theorem mem_before_of_transGen (hacyclic : ∀ e, g.Reached targets e → ¬g.OnCycle e)
    {before after : List EdgeId} {p e : EdgeId} (hedges : edges g targets = before ++ e :: after)
    (hp : TransGen g.Feeds p e) : p ∈ before := by
  have hfree {d : EdgeId} {left right : List EdgeId}
      (h : edges g targets = left ++ d :: right) : ¬g.OnCycle d :=
    hacyclic d ((mem_edges_iff hg).mp (by simp [h]))
  induction hp generalizing before after with
  | single hp => exact mem_before_of_feeds hg hedges (hfree hedges) hp
  | tail _ hq ih =>
    obtain ⟨left, right, rfl⟩ :=
      List.append_of_mem (mem_before_of_feeds hg hedges (hfree hedges) hq)
    rw [List.append_assoc, List.cons_append] at hedges
    exact List.mem_append_left _ (ih hedges)

end Order

end Reach

namespace Targets

variable {g : Graph}

theorem commands_eq {words : List String} {targets : List NodeId}
    (h : resolve g words = .ok targets) : commands g words =
      .ok (((Reach.edges g targets).filter fun id => !(g.edge id).isPhony).map g.command) := by
  rw [commands, h]
  rfl

/-- The edges that targets depend on: the walk to them ends in one way, with each edge that is found
from the targets once and no other, and each edge that is on no circle after those that make its
inputs. So the commands that are listed are those of the edges found that are not phony, once each,
and if nothing that is found is on a circle, each comes after the commands that make what it uses,
also by way of phony edges. -/
theorem commands_dependencies_first
    (hg : ∀ n e, (g.node n).producer = some e → e < g.edges.size) (targets : List NodeId) :
    (∃ met, ∀ w, Reach.Visits g targets ⟨[], []⟩ w ↔ w = ⟨met, Reach.edges g targets⟩) ∧
    (Reach.edges g targets).Nodup ∧
    (∀ e, e ∈ Reach.edges g targets ↔ g.Reached targets e) ∧
    (∀ before e after, Reach.edges g targets = before ++ e :: after → ¬g.OnCycle e →
      ∀ n ∈ (g.edge e).ins, ∀ p, (g.node n).producer = some p → p ∈ before) ∧
    ∀ words, resolve g words = .ok targets → ∃ order : List EdgeId,
      commands g words = .ok (order.map g.command) ∧ order.Nodup ∧
      (∀ e, e ∈ order ↔ g.Reached targets e ∧ (g.edge e).isPhony = false) ∧
      ((∀ e, g.Reached targets e → ¬g.OnCycle e) →
        ∀ before e after, order = before ++ e :: after →
          ∀ p, TransGen g.Feeds p e → (g.edge p).isPhony = false → p ∈ before) := by
  obtain ⟨met, hvisits⟩ := Reach.visits_edges hg targets
  refine ⟨⟨met, fun w => ⟨fun h => h.unique hvisits, fun h => h ▸ hvisits⟩⟩,
    Reach.nodup_edges hg targets, fun e => Reach.mem_edges_iff hg,
    fun before e after hedges he n hn p hp =>
      Reach.mem_before_of_feeds hg hedges he ⟨n, hn, hp⟩,
    fun words hwords => ⟨_, commands_eq hwords, (Reach.nodup_edges hg targets).filter _,
      fun e => ?_, fun hacyclic before e after horder p hp hphony => ?_⟩⟩
  · rw [List.mem_filter, Reach.mem_edges_iff hg, Bool.not_eq_true']
  · obtain ⟨left, right, hedges, rfl, hright⟩ := List.filter_eq_append_iff.mp horder
    obtain ⟨skipped, rest, rfl, hskipped, -, rfl⟩ := List.filter_eq_cons_iff.mp hright
    rw [← List.append_assoc] at hedges
    have hmem := Reach.mem_before_of_transGen hg hacyclic hedges hp
    rcases List.mem_append.mp hmem with hleft | hmem
    · exact List.mem_filter.mpr ⟨hleft, by simp [hphony]⟩
    · exact absurd hphony (by simpa using hskipped p hmem)

/-- A program is linked from a group of an object and a header; the object is compiled from a source
that is generated together with the header. -/
def grouped : Graph where
  scopes := .initial
  nodes := #[⟨"app", some 0, [], [], false⟩, ⟨"lib", some 1, [0], [], false⟩,
    ⟨"a.o", some 2, [1], [], false⟩, ⟨"gen.h", some 3, [1, 2], [], false⟩,
    ⟨"gen.c", some 3, [2], [], false⟩]
  edges := #[⟨.rule 0, none, Scopes.root, [0], [], [1], [], [], [], none⟩,
    ⟨.phony, none, Scopes.root, [1], [], [2, 3], [], [], [], none⟩,
    ⟨.rule 1, none, Scopes.root, [2], [], [4], [3], [], [], none⟩,
    ⟨.rule 2, none, Scopes.root, [4, 3], [], [], [], [], [], none⟩]
  rules := #[⟨"link", ∅⟩, ⟨"compile", ∅⟩, ⟨"generate", ∅⟩]
  pools := #[]
  defaults := []

/-- Each edge of the small graph stands before those that feed it. -/
theorem lt_of_feeds_grouped {p e : EdgeId} (h : grouped.Feeds p e) : e < p := by
  have hall : ∀ e ∈ grouped.edgeIds, ∀ n ∈ (grouped.edge e).ins,
      ∀ p ∈ (grouped.node n).producer, e < p := by decide +kernel
  obtain ⟨n, hn, hp⟩ := id h
  exact hall e (List.mem_range.mpr (Graph.lt_of_feeds h)) n hn p hp

theorem not_onCycle_grouped (e : EdgeId) : ¬grouped.OnCycle e := by
  have hlt {p e : EdgeId} (h : TransGen grouped.Feeds p e) : e < p := by
    induction h with
    | single h => exact lt_of_feeds_grouped h
    | tail _ h ih => exact Nat.lt_trans (lt_of_feeds_grouped h) ih
  exact fun hcycle => Nat.lt_irrefl e (hlt hcycle)

theorem producer_lt_grouped (n : NodeId) (e : EdgeId) (h : (grouped.node n).producer = some e) :
    e < grouped.edges.size := by
  have hall : ∀ n ∈ grouped.nodeIds, ∀ e ∈ (grouped.node n).producer, e < grouped.edges.size := by
    decide +kernel
  exact hall n (List.mem_range.mpr (Graph.lt_of_producer h)) e h

/-- The generator and the compiler are listed before the command that needs what they make by way of
the group. -/
theorem commands_dependencies_first_grouped :
    resolve grouped ["app"] = .ok [0] ∧ Reach.edges grouped [0] = [3, 2, 1, 0] ∧
    ∃ order : List EdgeId, commands grouped ["app"] = .ok (order.map grouped.command) ∧
      ∀ before after, order = before ++ 0 :: after → 3 ∈ before ∧ 2 ∈ before := by
  have hresolve : resolve grouped ["app"] = .ok [0] := by cbv
  obtain ⟨-, -, -, -, hlisted⟩ := commands_dependencies_first producer_lt_grouped [0]
  obtain ⟨order, hcommands, -, -, hbefore⟩ := hlisted ["app"] hresolve
  refine ⟨hresolve, by decide +kernel, order, hcommands, fun before after horder => ?_⟩
  have hgroup : TransGen grouped.Feeds 1 0 := .single ⟨1, by decide, by decide⟩
  have hobject : grouped.Feeds 2 1 := ⟨2, by decide, by decide⟩
  have hheader : grouped.Feeds 3 1 := ⟨3, by decide, by decide⟩
  exact ⟨hbefore (fun e _ => not_onCycle_grouped e) before 0 after horder 3 (.head hheader hgroup)
      (by decide),
    hbefore (fun e _ => not_onCycle_grouped e) before 0 after horder 2 (.head hobject hgroup)
      (by decide)⟩

end Targets

end Rebuild
