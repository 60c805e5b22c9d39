import Rebuild.Proofs.Scan.Comparison

/-!
# Newer and missing sources

Whatever becomes of sources, that one is changed or removed never makes anything fresh: what a scan
finds stale it would also find stale after that, and what it would find ready after that it finds
ready.
-/

namespace Rebuild

/-- No edge makes a file, and none has it as its dependency file. -/
def Graph.IsSource (g : Graph) (path : String) : Prop :=
  ∀ e < g.edges.size, path ∉ g.paths (g.edge e).outs ∧
    (g.edgeVar e "depfile" ≠ "" → Path.canonical (g.edgeVar e "depfile") ≠ path)

instance (g : Graph) (path : String) : Decidable (g.IsSource path) :=
  inferInstanceAs (Decidable (∀ e < _, _))

namespace Scan

open Relation (TransGen)

variable {files files' : FileView} {s : Scan} {g : Graph} {n : NodeId}

/-- Some sources of a graph became newer or vanished, and all other files are the same. -/
structure SourcesAge (g : Graph) (files files' : FileView) : Prop where
  others : ∀ path, ¬g.IsSource path →
    files'.stat path = files.stat path ∧ files'.read path = files.read path
  sources : ∀ path, g.IsSource path → files'.stat path = files.stat path ∨
    files'.stat path = .ok none ∨
      ∃ old new, old ≤ new ∧ files.stat path = .ok (some old) ∧ files'.stat path = .ok (some new)

theorem SourcesAge.worsens (h : SourcesAge g files files') (log : BuildLog) :
    Worsens g ⟨files, log⟩ ⟨files', log⟩ where
  log := rfl
  time path new hnew := by
    have hsame : files'.stat path = files.stat path →
        ∃ old ≤ new, files.stat path = .ok (some old) := fun heq => ⟨new, le_refl new, heq ▸ hnew⟩
    by_cases hsource : g.IsSource path
    · rcases h.sources path hsource with heq | hnone | ⟨old, new', hle, hold, hnew'⟩
      · exact hsame heq
      · cases hnone.symm.trans hnew
      · cases hnew'.symm.trans hnew
        exact ⟨old, hle, hold⟩
    · exact hsame (h.others path hsource).1
  outs e out hout :=
    have hmem : (g.node out).path ∈ g.paths (g.edge e).outs := Graph.mem_paths.mpr ⟨out, hout, rfl⟩
    (h.others _ fun hsource => (hsource e (Depfile.lt_of_mem_outs hmem)).1 hmem).1
  deps e hlt hvar := (h.others _ fun hsource => (hsource e hlt).2 hvar rfl).2

/-- Where no file is out of reach and no edge needs itself, every scan of a target succeeds. -/
theorem target_succeeds (src : Sources) (hs : s.Fresh) (hn : n < s.graph.nodes.size)
    (hacyclic : ∀ e, ¬TransGen (Needs src.files s) e e)
    (hstat : ∀ path fault, src.files.stat path ≠ .error fault) :
    ∃ t, target src n s = .ok () t ∧ Completes src false s [n] t := by
  have hcompletes := target_completes src hs hn
  cases hscan : target src n s with
  | ok _ t => exact ⟨t, rfl, by rwa [hscan] at hcompletes⟩
  | error err t =>
    rw [hscan] at hcompletes
    rcases hcompletes with ⟨path, fault, -, hfault⟩ | ⟨e, -, hcircle⟩
    · exact absurd hfault (hstat path fault)
    · exact absurd hcircle (hacyclic e)

/-- A target is scanned in a graph without cycles, dependencies that dependency files list included,
with files that can be looked at; and again after some sources became newer or vanished. Both scans
succeed. Every file that is stale for the first one is stale for the second one, and every edge that
is not ready for the first one is not ready for the second one. -/
theorem staleness_is_monotone (log : BuildLog) (hs : s.Fresh) (hn : n < s.graph.nodes.size)
    (hacyclic : ∀ e, ¬TransGen (Needs files s) e e)
    (hstat : ∀ path fault, files.stat path ≠ .error fault)
    (hstat' : ∀ path fault, files'.stat path ≠ .error fault)
    (hage : SourcesAge s.graph files files') :
    ∃ t t', target ⟨files, log⟩ n s = .ok () t ∧ target ⟨files', log⟩ n s = .ok () t' ∧
      (∀ m, m < t.graph.nodes.size → (t.survey.node m).dirty →
        ∃ m', m' < t'.graph.nodes.size ∧ (t'.graph.node m').path = (t.graph.node m).path ∧
          (t'.survey.node m').dirty) ∧
      ∀ e, ¬(t.survey.edge e).outputReady → ¬(t'.survey.edge e).outputReady := by
  have hworse := hage.worsens log
  have hacyclic' : ∀ e, ¬TransGen (Needs files' s) e e := fun e hcircle =>
    hacyclic e (hcircle.lift (fun a => a) fun a b hab => (hworse.needs_iff a b).mp hab)
  obtain ⟨t, hscan, hfirst⟩ := target_succeeds ⟨files, log⟩ hs hn hacyclic hstat
  obtain ⟨t', hscan', hsecond⟩ := target_succeeds ⟨files', log⟩ hs hn hacyclic' hstat'
  have hcompares : Compares ⟨files, log⟩ ⟨files', log⟩ false s [n] [n] t t' :=
    ⟨hs, hworse, hfirst, hsecond, fun _ => .rfl⟩
  refine ⟨t, t', hscan, hscan', fun m hm hdirty => ?_, fun e hnot hready => hnot ?_⟩
  · obtain ⟨m', hm', hpath, hages⟩ := hcompares.exists_ages hm
    exact ⟨m', hm', hpath, hages.1 hdirty⟩
  · exact hcompares.outputReady_of hready

/-! ## A source that vanishes -/

/-- The source of the group is gone. -/
def sourcelessFiles : FileView :=
  { groupSources.files with stat := fun path => .ok (if path = "a.o" then some 1 else none) }

/-- In the group, what is needed comes after what needs it. -/
theorem lt_of_needs_group {e d : Nat}
    (h : Needs groupSources.files (.start groupGraph default) e d) : e < d := by
  have hobject : groupGraph.findNode? "a.o" = some 1 := by cbv
  have hsource : groupGraph.findNode? "a.c" = some 2 := by cbv
  have hheader : groupGraph.findNode? "a.h" = none := by cbv
  have hgroupInputs : inputsOf groupSources.files (.start groupGraph default) 0 =
      ⟨["a.o"], [], []⟩ := by cbv
  have hobjectInputs : inputsOf groupSources.files (.start groupGraph default) 1 =
      ⟨["a.c"], ["a.h"], []⟩ := by cbv
  obtain ⟨path, n, huses, hfind, hprod⟩ := h
  have hedge : e = 0 ∨ e = 1 ∨ groupGraph.edges.size ≤ e := by
    have htwo : groupGraph.edges.size = 2 := rfl
    omega
  rcases hedge with rfl | rfl | hsize
  · rw [← mem_inputsOf, hgroupInputs] at huses
    obtain rfl : path = "a.o" := by simpa [InputPaths.all] using huses
    obtain rfl : 1 = n := Option.some.inj (hobject.symm.trans hfind)
    obtain rfl : 1 = d := Option.some.inj hprod
    decide
  · rw [← mem_inputsOf, hobjectInputs] at huses
    have hpath : path = "a.c" ∨ path = "a.h" := by simpa [InputPaths.all] using huses
    rcases hpath with rfl | rfl
    · obtain rfl : 2 = n := Option.some.inj (hsource.symm.trans hfind)
      cases hprod
    · cases hheader.symm.trans hfind
  · rcases huses with hin | ⟨-, hlists⟩
    · rw [Scan.start, Graph.edge_of_size_le hsize] at hin
      cases hin
    · exact absurd (Depfile.lt_of_listed ((Depfile.mem_listed path).mpr hlists)) (Nat.not_lt.mpr hsize)

theorem staleness_is_monotone_group : ∃ t t',
    target groupSources 0 (.start groupGraph default) = .ok () t ∧
    target ⟨sourcelessFiles, .inMemory⟩ 0 (.start groupGraph default) = .ok () t' ∧
      (∀ m, m < t.graph.nodes.size → (t.survey.node m).dirty →
        ∃ m', m' < t'.graph.nodes.size ∧ (t'.graph.node m').path = (t.graph.node m).path ∧
          (t'.survey.node m').dirty) ∧
      ∀ e, ¬(t.survey.edge e).outputReady → ¬(t'.survey.edge e).outputReady := by
  have hsource : groupGraph.IsSource "a.c" := of_decide_eq_true (by cbv)
  have hacyclic : ∀ e d, TransGen (Needs groupSources.files (.start groupGraph default)) e d →
      e < d := fun e d h => by
    induction h with
    | single hstep => exact lt_of_needs_group hstep
    | tail _ hstep ih => exact Nat.lt_trans ih (lt_of_needs_group hstep)
  refine staleness_is_monotone .inMemory (.start (by decide)) (by decide)
    (fun e h => Nat.lt_irrefl e (hacyclic e e h)) (by rintro _ _ ⟨⟩) (by rintro _ _ ⟨⟩)
    ⟨fun path hpath => ⟨?_, rfl⟩, fun path _ => ?_⟩
  · have hne : path ≠ "a.c" := fun heq => hpath (heq ▸ hsource)
    simp [sourcelessFiles, groupSources, hne]
  · by_cases heq : path = "a.c"
    · subst heq
      exact .inr (.inl rfl)
    · exact .inl (by simp [sourcelessFiles, groupSources, heq])

end Scan

end Rebuild
