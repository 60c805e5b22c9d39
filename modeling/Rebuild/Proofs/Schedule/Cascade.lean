import Rebuild.Proofs.Graph.Links
import Rebuild.Schedule

/-!
# How finishing an edge spreads

Finishing an edge looks again at the edges that use its outputs. One that was only waiting for its
inputs finishes in turn, one that is stale is queued, and nothing else happens. No edge that could
go on is passed over: when all is done, whatever waits still has an input that cannot be used.
-/

namespace Rebuild.Schedule

variable {g : Graph} {s t u : Schedule}

/-! ## Views -/

theorem phase_setPhase (s : Schedule) (d e : EdgeId) (phase : Option Phase) :
    (s.setPhase d phase).phase e = if d = e then phase else s.phase e :=
  Table.get_set ..

theorem phase_conclude (s : Schedule) (d e : EdgeId) :
    (s.conclude d).phase e = if d = e then none else s.phase e :=
  phase_setPhase ..

theorem edge_conclude (s : Schedule) (d e : EdgeId) : (s.conclude d).survey.edge e =
    if d = e then { s.survey.edge d with outputReady := true } else s.survey.edge e :=
  Survey.edge_modifyEdge ..

theorem outputReady_conclude (s : Schedule) (d : EdgeId) {e : EdgeId}
    (h : (s.survey.edge e).outputReady) : ((s.conclude d).survey.edge e).outputReady := by
  rw [edge_conclude]
  split
  · rfl
  · exact h

theorem enqueue_of_ne {e : EdgeId} (h : s.phase e ≠ some .queued) :
    s.enqueue e = { s.setPhase e (some .queued) with ready := s.ready ++ [e] } :=
  if_neg h

theorem phase_enqueue (s : Schedule) (d e : EdgeId) :
    (s.enqueue d).phase e = if d = e then some .queued else s.phase e := by
  by_cases h : s.phase d = some .queued
  · rw [enqueue, if_pos h]
    split
    · next heq => rw [← heq, h]
    · rfl
  · rw [enqueue_of_ne h]
    exact phase_setPhase ..

theorem survey_enqueue (s : Schedule) (e : EdgeId) : (s.enqueue e).survey = s.survey := by
  unfold enqueue
  split <;> rfl

theorem inputsReady_iff {survey : Survey} {e : EdgeId} : survey.inputsReady g e ↔
    ∀ n ∈ (g.edge e).ins, ∀ p, (g.node n).producer = some p → (survey.edge p).outputReady := by
  rw [Survey.inputsReady, List.all_eq_true]
  refine forall₂_congr fun n _ => ?_
  unfold Survey.isAvailable
  cases (g.node n).producer with
  | none => simp
  | some p => simp

/-- Nothing makes a file, or it can be used, or what makes it is registered. -/
def Covered (g : Graph) (s : Schedule) (n : NodeId) : Prop :=
  ∀ p, (g.node n).producer = some p → (s.survey.edge p).outputReady ∨ (s.phase p).isSome

/-- An edge is registered to be run. -/
def Stale (s : Schedule) (e : EdgeId) : Prop :=
  s.phase e = some .waiting ∨ s.phase e = some .queued

instance (s : Schedule) : DecidablePred (Stale s) := fun _ => inferInstanceAs (Decidable (_ ∨ _))

theorem Stale.isSome {e : EdgeId} (h : Stale s e) : (s.phase e).isSome := by
  rcases h with h | h
  · rw [h]
    rfl
  · rw [h]
    rfl

/-! ## Ripples -/

/-- Edges whose inputs are ready go on, one after the other: those that were only waiting for them
finish, and those that are stale are queued. -/
inductive Ripple (g : Graph) (s : Schedule) : Schedule → Prop
  | refl : Ripple g s s
  | conclude {t e} : Ripple g s t → t.phase e = some .clean → t.survey.inputsReady g e →
    Ripple g s (t.conclude e)
  | enqueue {t e} : Ripple g s t → t.phase e = some .waiting → t.survey.inputsReady g e →
    Ripple g s (t.enqueue e)

/-- What becomes of an edge in a ripple: nothing, or it is queued, or it finishes. -/
inductive Fate (g : Graph) (s t : Schedule) (e : EdgeId) : Prop
  | kept : t.phase e = s.phase e → t.survey.edge e = s.survey.edge e →
    t.ready.count e = s.ready.count e → Fate g s t e
  | queued : s.phase e = some .waiting → t.phase e = some .queued → t.survey.inputsReady g e →
    t.survey.edge e = s.survey.edge e → t.ready.count e = s.ready.count e + 1 → Fate g s t e
  | finished : s.phase e = some .clean → t.phase e = none → t.survey.inputsReady g e →
    (t.survey.edge e).outputReady → t.ready.count e = s.ready.count e → Fate g s t e

namespace Ripple

theorem trans (h : Ripple g s t) (h' : Ripple g t u) : Ripple g s u := by
  induction h' with
  | refl => exact h
  | conclude _ hphase hready ih => exact ih.conclude hphase hready
  | enqueue _ hphase hready ih => exact ih.enqueue hphase hready

/-- Only phases, readiness and the end of the queue change. -/
theorem frame (h : Ripple g s t) : ∃ more, t = { s with
    survey := t.survey, phases := t.phases, ready := s.ready ++ more } := by
  induction h with
  | refl => exact ⟨[], by simp⟩
  | conclude _ _ _ ih =>
    obtain ⟨more, ih⟩ := ih
    refine ⟨more, ?_⟩
    rw [ih]
    rfl
  | @enqueue t e _ hphase _ ih =>
    obtain ⟨more, ih⟩ := ih
    refine ⟨more ++ [e], ?_⟩
    rw [enqueue_of_ne (by rw [hphase]; simp), ih, ← List.append_assoc]
    rfl

theorem outputReady (h : Ripple g s t) {e : EdgeId} (he : (s.survey.edge e).outputReady) :
    (t.survey.edge e).outputReady := by
  induction h with
  | refl => exact he
  | conclude _ _ _ ih => exact outputReady_conclude _ _ ih
  | enqueue _ _ _ ih => rw [survey_enqueue]; exact ih

theorem inputsReady (h : Ripple g s t) {e : EdgeId} (he : s.survey.inputsReady g e) :
    t.survey.inputsReady g e :=
  inputsReady_iff.mpr fun n hn p hp => h.outputReady (inputsReady_iff.mp he n hn p hp)

/-- Nothing else can become of an edge. -/
theorem fate (h : Ripple g s t) (e : EdgeId) : Fate g s t e := by
  induction h with
  | refl => exact .kept rfl rfl rfl
  | @conclude t d h hphase hready ih =>
    have hinputs := (Ripple.conclude .refl hphase hready).inputsReady (e := e)
    have hcount : (t.conclude d).ready.count e = t.ready.count e := rfl
    by_cases hd : d = e
    · subst hd
      have hnone : (t.conclude d).phase d = none := by rw [phase_conclude, if_pos rfl]
      have hdone : ((t.conclude d).survey.edge d).outputReady := by
        rw [edge_conclude, if_pos rfl]
      cases ih with
      | kept hp _ hsame => exact .finished (hp ▸ hphase) hnone (hinputs hready) hdone hsame
      | queued _ hp => rw [hphase] at hp; cases hp
      | finished _ hp => rw [hphase] at hp; cases hp
    · have hp : (t.conclude d).phase e = t.phase e := by rw [phase_conclude, if_neg hd]
      have he : (t.conclude d).survey.edge e = t.survey.edge e := by
        rw [edge_conclude, if_neg hd]
      cases ih with
      | kept hp' he' hsame => exact .kept (hp.trans hp') (he.trans he') hsame
      | queued hw hq hin he' hmore =>
        exact .queued hw (hp.trans hq) (hinputs hin) (he.trans he') hmore
      | finished hc hn hin hr hsame =>
        exact .finished hc (hp.trans hn) (hinputs hin) (by rw [he]; exact hr) hsame
  | @enqueue t d h hphase hready ih =>
    have hcount : (t.enqueue d).ready.count e = t.ready.count e + if d = e then 1 else 0 := by
      rw [enqueue_of_ne (by rw [hphase]; simp)]
      simp [List.count_singleton]
    have hsurvey := survey_enqueue t d
    by_cases hd : d = e
    · subst hd
      have hqueued : (t.enqueue d).phase d = some .queued := by rw [phase_enqueue, if_pos rfl]
      rw [if_pos rfl] at hcount
      cases ih with
      | kept hp he hsame =>
        exact .queued (hp ▸ hphase) hqueued (by rw [hsurvey]; exact hready) (by rw [hsurvey, he])
          (by rw [hcount, hsame])
      | queued _ hp => rw [hphase] at hp; cases hp
      | finished _ hp => rw [hphase] at hp; cases hp
    · have hp : (t.enqueue d).phase e = t.phase e := by rw [phase_enqueue, if_neg hd]
      rw [if_neg hd, Nat.add_zero] at hcount
      cases ih with
      | kept hp' he' hsame => exact .kept (hp.trans hp') (by rw [hsurvey, he']) (hcount.trans hsame)
      | queued hw hq hin he' hmore =>
        exact .queued hw (hp.trans hq) (by rw [hsurvey]; exact hin) (by rw [hsurvey, he'])
          (hcount.trans hmore)
      | finished hc hn hin hr hsame =>
        exact .finished hc (hp.trans hn) (by rw [hsurvey]; exact hin) (by rw [hsurvey]; exact hr)
          (hcount.trans hsame)

theorem phase_of_none (h : Ripple g s t) {e : EdgeId} (he : s.phase e = none) :
    t.phase e = none := by
  cases h.fate e with
  | kept hp => rw [hp, he]
  | queued hp => rw [he] at hp; cases hp
  | finished hp => rw [he] at hp; cases hp

theorem isSome_phase (h : Ripple g s t) {e : EdgeId} (he : (t.phase e).isSome) :
    (s.phase e).isSome := by
  cases hp : s.phase e with
  | none => rw [h.phase_of_none hp] at he; cases he
  | some phase => rfl

end Ripple

private theorem wake_ripple {finish : EdgeId → Schedule → Schedule}
    (hfinish : ∀ {e t}, t.phase e = some .clean → t.survey.inputsReady g e →
      Ripple g t (finish e t)) (s : Schedule) (e : EdgeId) : Ripple g s (wake g finish s e) := by
  unfold wake
  cases hphase : s.phase e with
  | none => exact .refl
  | some phase =>
    dsimp only
    by_cases hready : s.survey.inputsReady g e
    · rw [hready, if_neg (by simp)]
      cases phase with
      | clean => exact hfinish hphase hready
      | waiting => exact .enqueue .refl hphase hready
      | queued =>
        have hsame : s.enqueue e = s := if_pos hphase
        rw [if_neg (by simp), hsame]
        exact .refl
    · rw [Bool.not_eq_true] at hready
      rw [hready, if_pos (by simp)]
      exact .refl

theorem finishWithin_ripple (depth : Nat) (id : EdgeId) (s : Schedule) :
    Ripple g (s.conclude id) (finishWithin g (depth + 1) id s) := by
  induction depth generalizing id s with
  | zero =>
    rw [finishWithin]
    generalize s.conclude id = t
    induction consumers g id generalizing t with
    | nil => exact .refl
    | cons c cs ih => exact (wake_ripple (fun _ _ => .refl) t c).trans (ih _)
  | succ depth ihdepth =>
    rw [finishWithin]
    generalize s.conclude id = t
    induction consumers g id generalizing t with
    | nil => exact .refl
    | cons c cs ih =>
      refine (wake_ripple (fun hphase hready => ?_) t c).trans (ih _)
      exact (Ripple.conclude .refl hphase hready).trans (ihdepth _ _)

private theorem wake_finishWithin_ripple (depth : Nat) (s : Schedule) (e : EdgeId) :
    Ripple g s (wake g (finishWithin g depth) s e) := by
  refine wake_ripple (fun hphase hready => ?_) s e
  cases depth with
  | zero => exact .refl
  | succ depth => exact (Ripple.conclude .refl hphase hready).trans (finishWithin_ripple _ _ _)

/-! ## Nothing is passed over -/

/-- How many edges are registered. -/
def registeredCount (g : Graph) (s : Schedule) : Nat :=
  g.countEdges fun e => (s.phase e).isSome

/-- An edge could go on, but was not looked at since its last input got ready. -/
def Pending (g : Graph) (s : Schedule) (e : EdgeId) : Prop :=
  (s.phase e = some .clean ∨ s.phase e = some .waiting) ∧ s.survey.inputsReady g e

theorem Ripple.registeredCount_le (h : Ripple g s t) : registeredCount g t ≤ registeredCount g s :=
  Graph.countEdges_mono rfl fun _ he => h.isSome_phase he

private theorem registeredCount_conclude {e : Nat} (hlt : e < g.edges.size)
    (he : (s.phase e).isSome) : registeredCount g (s.conclude e) < registeredCount g s := by
  refine Graph.countEdges_lt rfl (fun d hd => ?_) hlt ?_ he
  · rw [phase_conclude] at hd
    split at hd
    · cases hd
    · exact hd
  · rw [phase_conclude, if_pos rfl]
    simp

/-- Only edges that use an output of an edge can go on when it finishes. -/
private theorem pending_conclude (hg : g.Linked) {id e : EdgeId} (h : Pending g (s.conclude id) e) :
    e ≠ id ∧ (Pending g s e ∨ e ∈ consumers g id) := by
  obtain ⟨hphase, hready⟩ := h
  have hne : id ≠ e := by
    rintro rfl
    rw [phase_conclude, if_pos rfl] at hphase
    simp at hphase
  rw [phase_conclude, if_neg hne] at hphase
  refine ⟨hne.symm, ?_⟩
  by_cases hbefore : s.survey.inputsReady g e
  · exact .inl ⟨hphase, hbefore⟩
  right
  rw [inputsReady_iff] at hready hbefore
  push Not at hbefore
  obtain ⟨n, hn, p, hp, hnot⟩ := hbefore
  have hnow := hready n hn p hp
  rw [edge_conclude] at hnow
  by_cases hid : id = p
  · subst hid
    exact List.mem_flatMap.mpr ⟨n, (hg.producer_iff n id).mp hp, hg.mem_consumers_iff.mpr hn⟩
  · rw [if_neg hid] at hnow
    exact absurd hnow hnot

/-- After an edge was looked at, it cannot go on any further. -/
private theorem pending_wake {finish : EdgeId → Schedule → Schedule} {c : EdgeId}
    {X : EdgeId → Prop}
    (hfinish : s.phase c = some .clean → ∀ e, Pending g (finish c s) e → X e)
    (hX : ∀ e, Pending g s e → X e ∨ e = c) : ∀ e, Pending g (wake g finish s c) e → X e := by
  intro e
  unfold wake
  cases hphase : s.phase c with
  | none =>
    intro he
    refine (hX e he).resolve_right ?_
    rintro rfl
    simp [Pending, hphase] at he
  | some phase =>
    dsimp only
    by_cases hready : s.survey.inputsReady g c
    · rw [hready, if_neg (by simp)]
      by_cases hclean : phase = .clean
      · rw [if_pos hclean]
        exact hfinish (by rw [hphase, hclean]) e
      · rw [if_neg hclean]
        rintro ⟨he, hin⟩
        rw [phase_enqueue] at he
        rw [survey_enqueue] at hin
        by_cases hc : c = e
        · simp [hc] at he
        · rw [if_neg hc] at he
          exact (hX e ⟨he, hin⟩).resolve_right (Ne.symm hc)
    · rw [Bool.not_eq_true] at hready
      rw [hready, if_pos (by simp)]
      intro he
      refine (hX e he).resolve_right ?_
      rintro rfl
      rw [Pending, hready] at he
      exact nomatch he.2

/-- After an edge finished, an edge can only go on if it could before; `depth` was enough. -/
theorem pending_finishWithin (hg : g.Linked) {depth : Nat} {id : EdgeId} {X : EdgeId → Prop}
    (hlt : ∀ e, (s.phase e).isSome → e < g.edges.size) (hid : (s.phase id).isSome)
    (hdepth : registeredCount g s ≤ depth) (hX : ∀ e, Pending g s e → X e ∨ e = id) :
    ∀ e, Pending g (finishWithin g depth id s) e → X e := by
  induction depth generalizing id s X with
  | zero =>
    have hpos : 0 < registeredCount g s := Graph.countEdges_pos (hlt id hid) hid
    omega
  | succ depth ihdepth =>
    have hstart : ∀ e, Pending g (s.conclude id) e → X e ∨ e ∈ consumers g id := by
      intro e he
      obtain ⟨hne, he | he⟩ := pending_conclude hg he
      · exact .inl ((hX e he).resolve_right hne)
      · exact .inr he
    have hcount : registeredCount g (s.conclude id) ≤ depth := by
      have hless := registeredCount_conclude (hlt id hid) hid
      omega
    have hlt' : ∀ e, ((s.conclude id).phase e).isSome → e < g.edges.size := by
      intro e he
      rw [phase_conclude] at he
      split at he
      · cases he
      · exact hlt e he
    rw [finishWithin]
    generalize s.conclude id = t at hstart hcount hlt'
    generalize consumers g id = cs at hstart
    clear hlt hid hdepth hX
    -- of the users of the edge, those that are still to be looked at may go on
    induction cs generalizing t with
    | nil => exact fun e he => (hstart e he).resolve_right (by simp)
    | cons c cs ih =>
      have hwake := wake_finishWithin_ripple (g := g) depth t c
      have hrest : ∀ e, Pending g t e → (X e ∨ e ∈ cs) ∨ e = c := by
        intro e he
        rcases hstart e he with he | he
        · exact .inl (.inl he)
        · exact (List.mem_cons.mp he).elim .inr fun hmem => .inl (.inr hmem)
      refine ih _ (Nat.le_trans hwake.registeredCount_le hcount)
        (fun e he => hlt' e (hwake.isSome_phase he)) (pending_wake (fun hclean => ?_) hrest)
      exact ihdepth hlt' (by rw [hclean]; rfl) hcount hrest

/-- All that a schedule does when an edge finishes. -/
theorem finish_ripple {id : Nat} (hid : id < g.edges.size) (s : Schedule) :
    Ripple g (s.conclude id) (s.finish g id) := by
  obtain ⟨k, hk⟩ := Nat.exists_eq_add_of_lt (Nat.zero_lt_of_lt hid)
  rw [finish, hk]
  exact finishWithin_ripple _ id s

theorem pending_finish (hg : g.Linked) {id : EdgeId}
    (hlt : ∀ e, (s.phase e).isSome → e < g.edges.size) (hid : (s.phase id).isSome)
    (hnone : ∀ e, ¬Pending g s e) (e : EdgeId) : ¬Pending g (s.finish g id) e :=
  fun he => pending_finishWithin (X := fun _ => False) hg hlt hid (g.countEdges_le_size _)
    (fun e he => absurd he (hnone e)) e he

end Rebuild.Schedule
