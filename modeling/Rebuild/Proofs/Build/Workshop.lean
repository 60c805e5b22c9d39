import Rebuild.Proofs.Build.Course
import Rebuild.Workshop

/-!
# The workshop is faithful

Whatever goes on in a workshop, a command that was launched stays on the list until it is reported,
once. So all that holds of builds on faithful hosts holds of builds in workshops.
-/

namespace Rebuild.Workshop

/-- The edges whose commands were launched and not reported yet. -/
def underway (w : Workshop) : Multiset EdgeId :=
  (w.launched.map (·.job.edge) : List EdgeId)

/-! ## What leaves the list of commands as it is -/

theorem launched_addActivity (activity : Activity Shell.Scene) (w : Workshop) :
    (w.addActivity activity).launched = w.launched := by
  induction activity generalizing w with
  | «over» scene => rfl
  | waiting nanos isReady scene resume => rfl
  | forked scene child next _ ih => exact ih _ _

theorem launched_step {limit : Option Timestamp} {w w' : Workshop} (h : w.step? limit = some w') :
    w'.launched = w.launched := by
  unfold step? at h
  split at h
  · cases h
  · split at h
    · cases h
    · cases h
      exact launched_addActivity _ _

theorem launched_advance (time : Timestamp) (n : Nat) (w : Workshop) :
    (w.advance time n).launched = w.launched := by
  induction n generalizing w with
  | zero => rfl
  | succ n ih =>
    rw [advance]
    split
    · next w' hstep => rw [ih, launched_step hstep]
    · rfl

theorem launched_changing (w : Workshop) (fault : TreeFault → Error)
    (change : Except TreeFault FileTree) : (w.changing fault change).2.launched = w.launched := by
  cases change <;> rfl

theorem launched_makeDirectories (outputs : List String) (w : Workshop) :
    (w.makeDirectories outputs).2.launched = w.launched := by
  induction outputs generalizing w with
  | nil => rfl
  | cons out rest ih =>
    rw [makeDirectories]
    have hchanging := w.launched_changing
      (fun cause => .cannotCreateDir (w.pathOf out) cause.toIoFault)
      (w.scene.tree.createAround w.scene.stamp w.here (w.pathOf out))
    split
    · next hresult =>
      rw [hresult] at hchanging
      rw [ih, hchanging]
    · exact hchanging

theorem launched_writeResponse (w : Workshop) (job : Job) :
    (w.writeResponse job).2.launched = w.launched := by
  unfold writeResponse
  split
  · rfl
  · exact launched_changing ..

theorem launched_clearAway (w : Workshop) (job : Job) :
    (w.clearAway job).launched = w.launched := by
  unfold clearAway
  split
  · rfl
  · split <;> rfl

/-- Launching a command puts it on the list, also if it cannot be run. -/
theorem launched_launch (job : Job) (w : Workshop) :
    ∃ l : Launched, l.job = job ∧ (w.launch job).launched = w.launched ++ [l] := by
  unfold launch
  dsimp only
  have hadvance := launched_advance (w.scene.stamp + Shell.Scene.tick) maxTurns w
  generalize w.advance (w.scene.stamp + Shell.Scene.tick) maxTurns = w₁ at hadvance
  have hdirectories := launched_makeDirectories job.outputs w₁
  rw [hadvance] at hdirectories
  split
  · next hresult =>
    rw [hresult] at hdirectories
    exact ⟨_, rfl, congrArg (· ++ _) hdirectories⟩
  · next w₂ hresult =>
    rw [hresult] at hdirectories
    have hresponse := launched_writeResponse w₂ job
    rw [show w₂.launched = w.launched from hdirectories] at hresponse
    split
    · next hresult =>
      rw [hresult] at hresponse
      exact ⟨_, rfl, congrArg (· ++ _) hresponse⟩
    · next w₃ hresult =>
      rw [hresult] at hresponse
      split
      · exact ⟨_, rfl, congrArg (· ++ _) ((launched_clearAway w₃ job).trans hresponse)⟩
      · refine ⟨_, rfl, congrArg (· ++ _) ((launched_addActivity _ _).trans hresponse)⟩

/-! ## Reports -/

/-- The command that is reported is taken from the list. -/
theorem takeOver_perm {scene : Shell.Scene} {launched others : List Launched} {l : Launched}
    (h : takeOver scene launched = some (l, others)) : launched.Perm (l :: others) := by
  induction launched generalizing others with
  | nil => cases h
  | cons first rest ih =>
    rw [takeOver] at h
    split at h
    · cases h
      exact .refl _
    · obtain ⟨⟨found, more⟩, htaken, heq⟩ := Option.map_eq_some_iff.mp h
      cases heq
      exact ((ih htaken).cons first).trans (.swap l first more)

/-- The report is of a command of the list, which has the other commands afterwards; without a
report, the list is empty. -/
def Reports (w : Workshop) : Option JobReport × Workshop → Prop
  | (none, _) => underway w = 0
  | (some report, w') => underway w = report.edge ::ₘ underway w'

private theorem reports_of_takeOver {w : Workshop} {l : Launched} {others : List Launched}
    (h : takeOver w.scene w.launched = some (l, others)) (n : Nat) :
    Reports w (awaitWithin n w) := by
  have hreport : awaitWithin n w = (some (w.report l others).1, (w.report l others).2) := by
    rw [awaitWithin.eq_def]
    dsimp only
    rw [h]
  rw [hreport]
  exact Multiset.coe_eq_coe.mpr ((takeOver_perm h).map _)

/-- A workshop that gives up reports the first command of the list. -/
private theorem reports_of_giving_up {w : Workshop} {n : Nat}
    (h : takeOver w.scene w.launched = none) (hstuck : n = 0 ∨ w.step? none = none) :
    Reports w (awaitWithin n w) := by
  cases hlaunched : w.launched with
  | nil =>
    have hreport : awaitWithin n w = (none, w) := by
      rw [awaitWithin.eq_def]
      dsimp only
      rw [h, hlaunched]
      rcases hstuck with rfl | hnone
      · rfl
      · rw [hnone]
        cases n <;> rfl
    rw [hreport, Reports, underway, hlaunched]
    rfl
  | cons l others =>
    have hreport : awaitWithin n w =
        (some { (w.report l others).1 with outcome := .ended false [] },
          (w.report l others).2) := by
      rw [awaitWithin.eq_def]
      dsimp only
      rw [h, hlaunched]
      rcases hstuck with rfl | hnone
      · rfl
      · rw [hnone]
        cases n <;> rfl
    rw [hreport, Reports, underway, hlaunched]
    rfl

theorem awaitWithin_reports (n : Nat) (w : Workshop) : Reports w (awaitWithin n w) := by
  induction n generalizing w with
  | zero =>
    cases htaken : takeOver w.scene w.launched with
    | some found => exact reports_of_takeOver htaken 0
    | none => exact reports_of_giving_up htaken (.inl rfl)
  | succ n ih =>
    cases htaken : takeOver w.scene w.launched with
    | some found => exact reports_of_takeOver htaken (n + 1)
    | none =>
      cases hstep : w.step? none with
      | none => exact reports_of_giving_up htaken (.inr hstep)
      | some w' =>
        have hsame : underway w' = underway w := by rw [underway, launched_step hstep, underway]
        have hnext : awaitWithin (n + 1) w = awaitWithin n w' := by
          rw [awaitWithin.eq_def]
          dsimp only
          rw [htaken, hstep]
        have hreports := ih w'
        rw [hnext]
        generalize awaitWithin n w' = result at hreports
        obtain ⟨_ | report, w''⟩ := result
        · exact hsame.symm.trans hreports
        · exact hsame.symm.trans hreports

/-- A workshop reports each command once. -/
theorem host_faithful : host.Faithful underway where
  launch job w := by
    obtain ⟨l, rfl, hlaunched⟩ := launched_launch job w
    rw [underway, show (host.launch l.job w).launched = w.launched ++ [l] from hlaunched,
      List.map_append]
    exact Multiset.coe_eq_coe.mpr (List.perm_append_singleton _ _)
  await_none w w' h := by
    have hreports := awaitWithin_reports maxTurns w
    change awaitWithin maxTurns w = (none, w') at h
    rwa [h] at hreports
  await_some w report w' h := by
    have hreports := awaitWithin_reports maxTurns w
    change awaitWithin maxTurns w = (some report, w') at h
    rwa [h] at hreports
  printOut bytes w := rfl
  printError bytes w := rfl
  openFile path replace w opened w' h := by
    change openLog path replace w = .ok (opened, w') at h
    unfold openLog at h
    split at h
    · cases h
      rfl
    · cases h
    · cases h
  append handle bytes w w' h := by
    cases h
    rfl

end Rebuild.Workshop
