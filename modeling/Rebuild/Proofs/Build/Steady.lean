import Mathlib
import Rebuild.Program
import Rebuild.Proofs.Build.Course

/-!
# A steady place

The simplest host keeps a queue of commands, and does nothing but report them as successful, in the
order in which they were launched. Files stay as they are, and no log is kept.
-/

namespace Rebuild

/-- A host where commands succeed without doing anything. -/
def Host.steady (files : FileView) : Host (List EdgeId) where
  files _ := files
  logStore := ⟨fun _ _ queue => .ok ((0, 0), queue), fun _ _ queue => .ok queue⟩
  launch job queue := queue ++ [job.edge]
  await queue := (queue.head?.map fun id => ⟨id, 0, 0, .ended true []⟩, queue.tail)
  printOut _ queue := queue
  printError _ queue := queue

theorem Host.steady_faithful (files : FileView) :
    (Host.steady files).Faithful fun queue => (queue : Multiset EdgeId) where
  launch job queue := Multiset.coe_eq_coe.mpr (List.perm_append_singleton job.edge queue)
  await_none queue queue' h := by
    cases queue with
    | nil => rfl
    | cons id rest => cases h
  await_some queue report queue' h := by
    cases queue with
    | nil => cases h
    | cons id rest => cases h; rfl
  printOut _ _ := rfl
  printError _ _ := rfl
  openFile path replace queue opened queue' h := by cases h; rfl
  append handle bytes queue queue' h := by cases h; rfl

/-- On a steady host the build log can be written. -/
private theorem record_steady (files : FileView) (path : String) (entry : LogEntry)
    (kept : BuildLog.Kept (List EdgeId)) :
    ∃ kept', BuildLog.record (Host.steady files).logStore path entry kept = .ok () kept' := by
  obtain ⟨⟨entries, file⟩, queue⟩ := kept
  cases file with
  | none => exact ⟨_, rfl⟩
  | some file =>
    obtain ⟨name, handle, replace⟩ := file
    cases handle with
    | none => exact ⟨_, rfl⟩
    | some handle => exact ⟨_, rfl⟩

namespace Build

variable {files : FileView} {set : Settings (List EdgeId)} (hhost : set.host = .steady files)
include hhost

private theorem restatOutputs_steady (hstat : ∀ path, ∃ mtime, files.stat path = .ok mtime)
    (outs : List NodeId) (b : Build (List EdgeId)) :
    ∃ b', restatOutputs set outs b = .ok () b' := by
  induction outs generalizing b with
  | nil => exact ⟨b, rfl⟩
  | cons out outs ih =>
    obtain ⟨mtime, hmtime⟩ := hstat (set.graph.node out).path
    have hfiles : (set.host.files b.kept.place).stat (set.graph.node out).path = .ok mtime := by
      rw [hhost]
      exact hmtime
    let survey := b.schedule.survey.modifyNode out fun n =>
      { n.withStat mtime with dirty := false }
    obtain ⟨b', hrest⟩ := ih { b with schedule := { b.schedule with survey := survey } }
    refine ⟨b', ?_⟩
    rw [restatOutputs, Sequence.get_bind]
    dsimp only
    rw [hfiles]
    exact hrest

private theorem recordOutputs_steady (report : JobReport) (outs : List NodeId)
    (b : Build (List EdgeId)) :
    ∃ b', recordOutputs set report outs b = .ok () b' := by
  induction outs generalizing b with
  | nil => exact ⟨b, rfl⟩
  | cons out outs ih =>
    rw [recordOutputs, Sequence.get_bind]
    obtain ⟨kept, hkept⟩ := record_steady files (set.graph.node out).path _ b.kept
    rw [← hhost] at hkept
    obtain ⟨b', hrest⟩ := ih { b with kept := kept }
    refine ⟨b', ?_⟩
    rw [Sequence.bind_of_ok (t := { b with kept := kept }) (a := ())]
    · exact hrest
    · rw [withKept, hkept]

/-- A steady host lets every build succeed that can look at its files. -/
theorem steady_succeeds (hstat : ∀ path, ∃ mtime, files.stat path = .ok mtime)
    (b : Build (List EdgeId)) : Succeeds set b := by
  intro _ _ b₂ b₃ report _ _ hawait
  rw [await_eq_ok, hhost, EStateM.Result.ok.injEq] at hawait
  obtain ⟨id, -, rfl⟩ := Option.map_eq_some_iff.mp hawait.1
  refine ⟨⟨[], rfl⟩, ?_⟩
  obtain ⟨b₄, hrestat⟩ := restatOutputs_steady hhost hstat (set.graph.edge id).outs
    { b₃ with
      schedule := b₃.schedule.stopped set.graph id
      kept := { b₃.kept with place := set.host.printOut [] b₃.kept.place } }
  obtain ⟨b₅, hrecord⟩ := recordOutputs_steady hhost ⟨id, 0, 0, .ended true []⟩
    (set.graph.edge id).outs b₄
  exact ⟨_, (Sequence.bind_of_ok _ hrestat).trans (Sequence.bind_of_ok _ hrecord)⟩

end Build

/-! ## A small build -/

/-- Two files that are made one at a time, and a name for both. -/
def twins : Graph where
  scopes := .initial
  nodes := #[⟨"left", some 0, [2], [], false⟩, ⟨"right", some 1, [2], [], false⟩,
    ⟨"both", some 2, [], [], false⟩]
  edges := #[⟨.rule 0, some 0, Scopes.root, [0], [], [], [], [], [], none⟩,
    ⟨.rule 0, some 0, Scopes.root, [1], [], [], [], [], [], none⟩,
    ⟨.phony, none, Scopes.root, [2], [], [0, 1], [], [], [], none⟩]
  rules := #[⟨"make", ∅⟩]
  pools := #[⟨"narrow", 1⟩]
  defaults := []

/-- Nothing exists. -/
def noFiles : FileView where
  stat _ := .ok none
  read _ := .error .missing

/-- What a scan finds out about the small build. -/
def twinsScan : Scan :=
  match Scan.all ⟨noFiles, .inMemory⟩ [2] (.start twins default) with
  | .ok _ found | .error _ found => found

theorem twins_scanned :
    Scan.all ⟨noFiles, .inMemory⟩ [2] (.start twins default) = .ok [] twinsScan := by cbv

/-- The schedule of the small build. -/
def twinsSchedule : Schedule :=
  match Program.schedule twinsScan [2] [] with
  | .ok s => s
  | .error _ => .start twinsScan.survey

theorem twins_scheduled : Program.schedule twinsScan [2] [] = .ok twinsSchedule := by cbv

end Rebuild
