import Mathlib
import Rebuild.Program
import Rebuild.Proofs.Build.Tidy

/-!
# A place where work is done

A host that runs commands one after the other, each of which writes the outputs of its edge. All
that is written is as new as the clock says, which stands still.
-/

namespace Rebuild

/-- Commands that are underway, and those that have ended. -/
structure Bench where
  underway : List EdgeId
  ended : List EdgeId

/-- A host where the commands of a graph write their outputs. -/
def Host.diligent (g : Graph) (files : FileView) (clock : Timestamp) : Host Bench where
  files bench := { files with
    stat := fun path =>
      if bench.ended.any fun id => (g.paths (g.edge id).outs).contains path then .ok (some clock)
      else files.stat path }
  logStore := ⟨fun _ _ bench => .ok ((0, 0), bench), fun _ _ bench => .ok bench⟩
  launch job bench := { bench with underway := bench.underway ++ [job.edge] }
  await bench :=
    match bench.underway with
    | [] => (none, bench)
    | id :: rest => (some ⟨id, 0, 0, .ended true []⟩, ⟨rest, id :: bench.ended⟩)
  printOut _ bench := bench
  printError _ bench := bench

namespace Host

variable {g : Graph} {files : FileView} {clock : Timestamp}

theorem diligent_faithful (g : Graph) (files : FileView) (clock : Timestamp) :
    (Host.diligent g files clock).Faithful fun bench => (bench.underway : Multiset EdgeId) where
  launch job bench := Multiset.coe_eq_coe.mpr (List.perm_append_singleton job.edge bench.underway)
  await_none bench bench' h := by
    obtain ⟨queue, ended⟩ := bench
    cases queue with
    | nil => rfl
    | cons id rest => cases h
  await_some bench report bench' h := by
    obtain ⟨queue, ended⟩ := bench
    cases queue with
    | nil => cases h
    | cons id rest => cases h; rfl
  printOut _ _ := rfl
  printError _ _ := rfl
  openFile path replace bench opened bench' h := by cases h; rfl
  append handle bytes bench bench' h := by cases h; rfl

end Host

namespace Build

open Schedule (Event)

variable {g : Graph} {files : FileView} {clock : Timestamp} {set : Settings Bench}
  {b b₁ b₂ : Build Bench} {events : List Event} {event : Event} {n : NodeId}

section Diligent

variable (hhost : set.host = .diligent g files clock)
include hhost

/-- Printing and writing to the log do nothing at all. -/
theorem diligent_placid {R : Bench → Bench → Prop} (hrefl : ∀ w, R w w)
    (htrans : ∀ w w' w'', R w w' → R w' w'' → R w w'') : Placid set.host R := by
  rw [hhost]
  exact ⟨hrefl, htrans, fun _ => hrefl, fun _ => hrefl,
    fun _ _ w _ _ h => by cases h; exact hrefl w, fun _ _ w _ h => by cases h; exact hrefl w⟩

/-- So a place is left as it is when a report was taken in. -/
theorem diligent_eq : Placid set.host (Eq : Bench → Bench → Prop) :=
  diligent_placid hhost (fun _ => rfl) fun _ _ _ => Eq.trans

/-- In a turn one command ends at most, which was underway. -/
theorem ended_of_advance (h : Advance set b event b₁) :
    b₁.kept.place.ended = b.kept.place.ended ∨ ∃ id ∈ b.kept.place.underway,
      b₁.kept.place.ended = id :: b.kept.place.ended := by
  cases h with
  | passed hturn => exact .inl (by rw [(turn_inv hturn).2])
  | @started id c _ hturn hlaunch =>
    obtain ⟨place, hlaunch', hplace⟩ := launch_eq_ok set id c
    rw [hlaunch', EStateM.Result.ok.injEq] at hlaunch
    obtain ⟨-, rfl⟩ := hlaunch
    left
    show place.ended = _
    rw [hplace, hhost, (turn_inv hturn).2]
    rfl
  | @stopped report c c' _ hturn hawait hreceive =>
    have hplace := ((diligent_eq hhost).receive report).ok hreceive
    rw [await_eq_ok, hhost, (turn_inv hturn).2, EStateM.Result.ok.injEq] at hawait
    obtain ⟨hreport, rfl⟩ := hawait
    rw [← hplace]
    generalize b.kept.place = bench at hreport
    obtain ⟨queue, ended⟩ := bench
    cases queue with
    | nil => cases hreport
    | cons id rest => exact .inr ⟨id, List.mem_cons_self, rfl⟩

/-- An output of a command that has ended is as new as the clock says, other files are as they
were. -/
theorem fileTime_diligent (bench : Bench) (n : NodeId) : fileTime set bench n =
    if ∃ id ∈ bench.ended, (set.graph.node n).path ∈ g.paths (g.edge id).outs then .ok (some clock)
    else files.stat (set.graph.node n).path := by
  rw [fileTime, hhost]
  simp [Host.diligent]

/-- A command whose report has come has ended. -/
theorem mem_ended_of_await {bench bench' : Bench} {report : JobReport}
    (h : set.host.await bench = (some report, bench')) : report.edge ∈ bench'.ended := by
  rw [hhost] at h
  obtain ⟨queue, ended⟩ := bench
  cases queue with
  | nil => cases h
  | cons id rest =>
    cases h
    exact List.mem_cons_self

/-- Diligent commands keep to their outputs, if no file is newer than the clock says. -/
theorem diligent_tidy (hgraph : set.graph = g) (hg : g.Linked)
    (hclock : ∀ n < g.nodes.size, ∀ old, files.stat (g.node n).path = .ok (some old) → old ≤ clock)
    (hrunning : (b.kept.place.underway : Multiset EdgeId) = b.schedule.running) : Tidy set b := by
  have hfaithful : set.host.Faithful fun bench => (bench.underway : Multiset EdgeId) :=
    hhost ▸ Host.diligent_faithful g files clock
  subst hgraph
  refine ⟨diligent_placid hhost (fun _ _ _ => rfl)
      fun _ _ _ hfirst hsecond n hn => (hsecond n hn).trans (hfirst n hn),
    fun {events b₁ event b₂} hleads hadvance n hn hidle => ?_,
    fun {events b₁ id b₂ between b₃ b₄} _ _ _ hfinish out hout => ⟨clock, ?_, ?_⟩⟩
  · obtain hsame | ⟨id, hid, hsame⟩ := ended_of_advance hhost hadvance
    · rw [fileTime_diligent hhost, fileTime_diligent hhost, hsame]
    -- the file is no output of the command that has ended
    have hrun : id ∈ b₁.schedule.running := by
      have hnow := (hleads.invariant hfaithful (P := fun _ _ => True) trivial (fun _ _ => trivial)
        hrunning).2
      exact (Multiset.coe_eq_coe.mp hnow).mem_iff.mp hid
    have hother : (set.graph.node n).path ∉ set.graph.paths (set.graph.edge id).outs := by
      intro hpath
      obtain ⟨m, hm, heq⟩ := Graph.mem_paths.mp hpath
      have hlt := Graph.lt_of_producer ((hg.producer_iff m id).mpr hm)
      obtain rfl := hg.paths_inj m n hlt hn heq
      exact hidle id (List.mem_append_left _ hrun) hm
    rw [fileTime_diligent hhost, fileTime_diligent hhost, hsame]
    exact if_congr (by simp [hother]) rfl rfl
  · obtain ⟨report, output, w, hawait, rfl, -⟩ := hfinish.recorded hg
    obtain rfl := (diligent_eq hhost).of_finished hfinish hawait
    rw [fileTime_diligent hhost, if_pos]
    exact ⟨report.edge, mem_ended_of_await hhost hawait, List.mem_map_of_mem hout⟩
  · intro n hn old hold
    rw [fileTime_diligent hhost] at hold
    split at hold
    · cases hold
      exact le_refl clock
    · exact hclock n hn old hold

end Diligent

end Build

end Rebuild
