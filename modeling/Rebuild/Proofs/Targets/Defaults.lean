import Mathlib
import Rebuild.Proofs.Manifest.Linked
import Rebuild.Proofs.Scan.Visit
import Rebuild.Targets

/-!
# What is built when nothing is named

Without targets and `default` statements a build asks for the outputs that no edge uses. From an
edge whose outputs are all used the way leads on to an edge that uses one of them, and as there are
finitely many edges it ends at an output that nothing uses, or in a circle. So what the build
overlooks are the circles that lead nowhere, and all that goes only into them; everything else it
scans.
-/

namespace Rebuild

namespace Graph

open Relation (ReflTransGen TransGen)

/-- An edge is found from targets, going inwards through inputs of any kind. -/
def Reached (g : Graph) (targets : List NodeId) (e : EdgeId) : Prop :=
  ∃ n ∈ targets, ∃ first, (g.node n).producer = some first ∧ ReflTransGen g.Feeds e first

/-- An edge goes into itself. -/
def OnCycle (g : Graph) (e : EdgeId) : Prop :=
  TransGen g.Feeds e e

variable {g g' : Graph} {targets : List NodeId} {p e : EdgeId}

theorem Reached.feeds (h : g.Reached targets e) (hp : g.Feeds p e) : g.Reached targets p := by
  obtain ⟨n, hn, first, hfirst, hreach⟩ := h
  exact ⟨n, hn, first, hfirst, hreach.head hp⟩

theorem lt_of_feeds (h : g.Feeds p e) : e < g.edges.size := by
  obtain ⟨n, hn, -⟩ := h
  by_contra hlt
  rw [edge_of_size_le (Nat.le_of_not_lt hlt)] at hn
  cases hn

theorem Grows.feeds (h : g.Grows g') (hp : g.Feeds p e) : g'.Feeds p e := by
  obtain ⟨n, hn, hprod⟩ := hp
  exact ⟨n, h.ins_subset e hn, (h.producer n).trans hprod⟩

theorem mem_roots {n : NodeId} : n ∈ g.roots ↔
    (∃ e < g.edges.size, n ∈ (g.edge e).outs) ∧ (g.node n).consumers = [] := by
  simp only [roots, List.mem_eraseDups, List.mem_filter, List.mem_flatMap, List.isEmpty_iff,
    Array.mem_toList_iff, Array.mem_iff_getElem]
  refine and_congr_left fun _ => ⟨?_, ?_⟩
  · rintro ⟨_, ⟨e, he, rfl⟩, hn⟩
    exact ⟨e, he, by simpa [edge, Array.getD_eq_getD_getElem?, he] using hn⟩
  · rintro ⟨e, he, hn⟩
    exact ⟨_, ⟨e, he, rfl⟩, by simpa [edge, Array.getD_eq_getD_getElem?, he] using hn⟩

/-- An edge that is not found from the roots goes into another one that is not. -/
theorem Declared.feeds_of_not_reached (hg : g.Declared) (he : e < g.edges.size)
    (hnot : ¬g.Reached g.roots e) : ∃ c, g.Feeds e c ∧ ¬g.Reached g.roots c := by
  obtain ⟨out, hout⟩ := List.exists_mem_of_ne_nil _ (hg.makes e he)
  have hprod := (hg.producer_iff out e).mpr hout
  have hused : (g.node out).consumers ≠ [] := fun hnil =>
    hnot ⟨out, mem_roots.mpr ⟨⟨e, he, hout⟩, hnil⟩, e, hprod, .refl⟩
  obtain ⟨c, hc⟩ := List.exists_mem_of_ne_nil _ hused
  have hfeeds : g.Feeds e c := ⟨out, hg.mem_consumers_iff.mp hc, hprod⟩
  exact ⟨c, hfeeds, fun hreached => hnot (hreached.feeds hfeeds)⟩

/-- Going outwards from an edge that is not found from the roots ends in a circle. -/
theorem Declared.cycle_of_not_reached (hg : g.Declared) (he : e < g.edges.size)
    (hnot : ¬g.Reached g.roots e) :
    ∃ c, g.OnCycle c ∧ ¬g.Reached g.roots c ∧ ReflTransGen g.Feeds e c := by
  by_contra hnone
  push Not at hnone
  -- the edges that are met on the way outwards
  let Met := { c : Fin g.edges.size // ¬g.Reached g.roots c ∧ ReflTransGen g.Feeds e c }
  let outwards : Met → Met → Prop := fun d c => TransGen g.Feeds c.1 d.1
  have htrans : IsTrans Met outwards := ⟨fun _ _ _ h h' => TransGen.trans h' h⟩
  have hirrefl : Std.Irrefl outwards := ⟨fun c hc => hnone c.1 hc c.2.1 c.2.2⟩
  have hfounded : WellFounded outwards := Finite.wellFounded_of_trans_of_irrefl outwards
  obtain ⟨last, -, hlast⟩ := hfounded.has_min Set.univ ⟨⟨⟨e, he⟩, hnot, .refl⟩, trivial⟩
  obtain ⟨c, hfeeds, hc⟩ := hg.feeds_of_not_reached last.1.2 last.2.1
  exact hlast ⟨⟨c, lt_of_feeds hfeeds⟩, hc, last.2.2.tail hfeeds⟩ trivial (.single hfeeds)

/-- Nothing goes into itself where going inwards comes to an end. -/
theorem not_onCycle_of_acc (h : Acc g.Feeds e) : ¬g.OnCycle e := by
  have htrans := h.transGen
  clear h
  induction htrans with
  | intro e _ ih => exact fun hcycle => ih e hcycle hcycle

end Graph

namespace Targets

open Rebuild.Graph (Reached OnCycle)
open Relation (ReflTransGen)

variable {g : Graph} {targets : List NodeId}

/-- A scan that succeeds was done with all edges that are found from what it scanned. -/
theorem done_of_reached {src : Scan.Sources} {validations : List NodeId} {found : Scan}
    (hg : g.Linked) (hscan : Scan.all src targets (.start g default) = .ok validations found)
    {e : EdgeId} (he : g.Reached targets e) : found.visitOf e = .done ∧ ¬g.OnCycle e := by
  obtain ⟨hsound, honward, hknown⟩ := Scan.all_ok (.start hg) hscan
  obtain ⟨n, hn, first, hfirst, hreach⟩ := he
  have hdone : found.visitOf e = .done := by
    induction hreach using ReflTransGen.head_induction_on with
    | refl =>
      exact (Scan.known_of_producer ((honward.graph.producer n).trans hfirst)).mp
        (hknown n (List.mem_append_left _ hn))
    | head hstep _ ih =>
      obtain ⟨m, hm, hprod⟩ := honward.graph.feeds hstep
      exact (Scan.known_of_producer hprod).mp ((hsound.settled _ ih).known m hm)
  refine ⟨hdone, fun hcycle => ?_⟩
  exact Graph.not_onCycle_of_acc (hsound.settled e hdone).founded
    (hcycle.lift id fun _ _ => honward.graph.feeds)

/-- Without `default` statements, a build that names no target asks for the roots. They lead to
every edge but those that go into a circle to which they do not lead, and so to all edges exactly if
they lead to all circles. A scan of the roots that succeeds is done with every edge to which they
lead, and none of these goes into itself. -/
theorem roots_lead_to_edges {files : FileView} {path : String}
    (hload : Manifest.load files path = .ok g) (hdefaults : g.defaults = []) :
    resolve g [] = .ok g.roots ∧
    (∀ e < g.edges.size, g.Reached g.roots e ∨
      ∃ c, g.OnCycle c ∧ ¬g.Reached g.roots c ∧ ReflTransGen g.Feeds e c) ∧
    ((∀ e < g.edges.size, g.Reached g.roots e) ↔ ∀ c, g.OnCycle c → g.Reached g.roots c) ∧
    ∀ src validations found, Scan.all src g.roots (.start g default) = .ok validations found →
      ∀ e, g.Reached g.roots e → found.visitOf e = .done ∧ ¬g.OnCycle e := by
  have hg := Manifest.load_declared hload
  have hleads : ∀ e < g.edges.size, g.Reached g.roots e ∨
      ∃ c, g.OnCycle c ∧ ¬g.Reached g.roots c ∧ ReflTransGen g.Feeds e c := fun e he =>
    or_iff_not_imp_left.mpr (hg.cycle_of_not_reached he)
  refine ⟨?_, hleads, ⟨fun hall c hc => ?_, fun hcycles e he => ?_⟩,
    fun src validations found hscan e he => done_of_reached hg.toLinked hscan he⟩
  · rw [resolve, hdefaults]
    rfl
  · obtain ⟨d, -, hfeeds⟩ := Relation.TransGen.tail'_iff.mp hc
    exact hall c (Graph.lt_of_feeds hfeeds)
  · refine (hleads e he).resolve_right ?_
    rintro ⟨c, hc, hnot, -⟩
    exact hnot (hcycles c hc)

/-- A manifest of one statement, whose output is its own input. -/
def ringFiles : FileView where
  stat _ := .ok none
  read path := if path = "build.ninja" then .ok (Utf8.encode "build a: phony a\n".toList)
    else .error .missing

/-- The graph of that manifest. -/
def ringGraph : Graph :=
  (Manifest.load ringFiles "build.ninja").toOption.getD default

/-- Nothing leads to a file that is made from itself. -/
theorem roots_lead_to_edges_ring :
    resolve ringGraph [] = .ok [] ∧ ∃ c, ringGraph.OnCycle c ∧ ¬ringGraph.Reached [] c := by
  have hload : Manifest.load ringFiles "build.ninja" = .ok ringGraph := by cbv
  have hroots : ringGraph.roots = [] := by cbv
  obtain ⟨hresolve, hleads, -⟩ := roots_lead_to_edges hload (by cbv)
  rw [hroots] at hresolve hleads
  rcases hleads 0 (by cbv) with ⟨n, hn, -⟩ | ⟨c, hcycle, hnot, -⟩
  · cases hn
  · exact ⟨hresolve, c, hcycle, hnot⟩

end Targets

end Rebuild
