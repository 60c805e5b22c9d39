import Rebuild.Error

/-!
# Steps in sequence

Scans and builds are sequences of steps that change a state and may fail. A sequence succeeds when
its first step does and the rest succeeds from where that left the state.
-/

namespace Rebuild.Sequence

variable {ε σ α β : Type}

theorem bind_eq_ok {first : EStateM ε σ α} {next : α → EStateM ε σ β} {s t : σ} {b : β} :
    (first >>= next) s = .ok b t ↔ ∃ a u, first s = .ok a u ∧ next a u = .ok b t := by
  show EStateM.bind first next s = .ok b t ↔ _
  unfold EStateM.bind
  cases first s with
  | ok a u => exact ⟨fun h => ⟨a, u, rfl, h⟩, fun ⟨_, _, hfirst, h⟩ => by cases hfirst; exact h⟩
  | error e u => exact ⟨(nomatch ·), fun ⟨_, _, hfirst, _⟩ => nomatch hfirst⟩

theorem bind_eq_error {first : EStateM ε σ α} {next : α → EStateM ε σ β} {s t : σ}
    {e : ε} : (first >>= next) s = .error e t ↔
      first s = .error e t ∨ ∃ a u, first s = .ok a u ∧ next a u = .error e t := by
  show EStateM.bind first next s = .error e t ↔ _
  unfold EStateM.bind
  cases first s with
  | ok a u =>
    exact ⟨fun h => .inr ⟨a, u, rfl, h⟩, fun h => by
      rcases h with h | ⟨_, _, hfirst, h⟩
      · cases h
      · cases hfirst; exact h⟩
  | error d u => simp

theorem bind_of_ok {first : EStateM ε σ α} (next : α → EStateM ε σ β) {s t : σ} {a : α}
    (h : first s = .ok a t) : (first >>= next) s = next a t := by
  show EStateM.bind first next s = next a t
  rw [EStateM.bind, h]

theorem bind_of_error {first : EStateM ε σ α} (next : α → EStateM ε σ β) {s t : σ}
    {e : ε} (h : first s = .error e t) : (first >>= next) s = .error e t := by
  show EStateM.bind first next s = .error e t
  rw [EStateM.bind, h]

theorem run'_eq_some {work : EStateM ε σ α} {s : σ} {a : α} :
    work.run' s = some a ↔ ∃ t, work s = .ok a t := by
  unfold EStateM.run' EStateM.run
  cases work s <;> simp

/-- The rest matters only where the first step may lead. -/
theorem bind_congr {first : EStateM ε σ α} {next next' : α → EStateM ε σ β} {s : σ}
    (h : ∀ a t, first s = .ok a t → next a t = next' a t) :
    (first >>= next) s = (first >>= next') s := by
  cases hfirst : first s with
  | ok a t => rw [bind_of_ok next hfirst, bind_of_ok next' hfirst, h a t hfirst]
  | error e t => rw [bind_of_error next hfirst, bind_of_error next' hfirst]

theorem bind_congr_left {first first' : EStateM ε σ α} {next : α → EStateM ε σ β} {s : σ}
    (h : first s = first' s) : (first >>= next) s = (first' >>= next) s := by
  show EStateM.bind first next s = EStateM.bind first' next s
  rw [EStateM.bind, EStateM.bind, h]

@[simp] theorem get_bind {next : σ → EStateM ε σ β} {s : σ} :
    ((get : EStateM ε σ σ) >>= next) s = next s s := rfl

@[simp] theorem pure_eq_ok {a b : α} {s t : σ} :
    (pure a : EStateM ε σ α) s = .ok b t ↔ a = b ∧ s = t := by
  show EStateM.Result.ok a s = .ok b t ↔ _
  simp

@[simp] theorem pure_ne_error {e : ε} {a : α} {s t : σ} :
    (pure a : EStateM ε σ α) s ≠ .error e t := fun h => nomatch h

@[simp] theorem throw_eq_error {e d : ε} {s t : σ} :
    (throw e : EStateM ε σ α) s = .error d t ↔ e = d ∧ s = t := by
  show EStateM.Result.error e s = .error d t ↔ _
  simp

@[simp] theorem throw_ne_ok {e : ε} {a : α} {s t : σ} :
    (throw e : EStateM ε σ α) s ≠ .ok a t := fun h => nomatch h

/-! ## What a sequence keeps -/

/-- Whether it succeeds or fails, work leaves a state that is related to the one before. -/
def Keeps (R : σ → σ → Prop) (work : EStateM Error σ α) : Prop :=
  ∀ s, match work s with
    | .ok _ t | .error _ t => R s t

namespace Keeps

variable {R : σ → σ → Prop} {s t : σ}

theorem ok {work : EStateM Error σ α} (h : Keeps R work) {a : α} (hwork : work s = .ok a t) :
    R s t := by
  have hs := h s
  rwa [hwork] at hs

theorem error {work : EStateM Error σ α} (h : Keeps R work) {e : Error}
    (hwork : work s = .error e t) : R s t := by
  have hs := h s
  rwa [hwork] at hs

theorem mono {R' : σ → σ → Prop} {work : EStateM Error σ α} (h : Keeps R work)
    (hmono : ∀ s t, R s t → R' s t) : Keeps R' work := by
  intro s
  have hs := h s
  cases hwork : work s with
  | ok a t =>
    rw [hwork] at hs
    exact hmono s t hs
  | error e t =>
    rw [hwork] at hs
    exact hmono s t hs

theorem pure (hrefl : ∀ s, R s s) (a : α) : Keeps R (pure a : EStateM Error σ α) := hrefl

theorem throw (hrefl : ∀ s, R s s) (e : Error) : Keeps R (throw e : EStateM Error σ α) := hrefl

theorem get (hrefl : ∀ s, R s s) : Keeps R (get : EStateM Error σ σ) := hrefl

theorem modify {f : σ → σ} (hf : ∀ s, R s (f s)) : Keeps R (modify f : EStateM Error σ PUnit) := hf

theorem bind (htrans : ∀ s t u, R s t → R t u → R s u) {first : EStateM Error σ α}
    {next : α → EStateM Error σ β} (hfirst : Keeps R first) (hnext : ∀ a, Keeps R (next a)) :
    Keeps R (first >>= next) := by
  intro s
  have hs := hfirst s
  show match EStateM.bind first next s with | .ok _ t | .error _ t => R s t
  unfold EStateM.bind
  cases hresult : first s with
  | error e t => rwa [hresult] at hs
  | ok a t =>
    rw [hresult] at hs
    have ht := hnext a t
    dsimp only
    cases hrest : next a t with
    | ok b u =>
      rw [hrest] at ht
      exact htrans _ _ _ hs ht
    | error e u =>
      rw [hrest] at ht
      exact htrans _ _ _ hs ht

end Keeps

/-- From one state, whether it succeeds or fails, work leaves a state that is related to it. -/
def KeepsFrom (R : σ → σ → Prop) (s : σ) (work : EStateM Error σ α) : Prop :=
  match work s with
  | .ok _ t | .error _ t => R s t

section KeepsFrom

variable {R : σ → σ → Prop} {s u : σ}

theorem Keeps.from {work : EStateM Error σ α} (h : Keeps R work) (s : σ) : KeepsFrom R s work := h s

theorem Keeps.of_from {work : EStateM Error σ α} (h : ∀ s, KeepsFrom R s work) : Keeps R work := h

/-- Work in which the outcome of the first step is known. -/
theorem KeepsFrom.after {first : EStateM Error σ α} {next : α → EStateM Error σ β} {a : α}
    (hfirst : first s = .ok a u) (hmore : ∀ t, R u t → R s t) (hnext : KeepsFrom R u (next a)) :
    KeepsFrom R s (first >>= next) := by
  unfold KeepsFrom at hnext ⊢
  rw [bind_of_ok _ hfirst]
  split
  · next hrun =>
    rw [hrun] at hnext
    exact hmore _ hnext
  · next hrun =>
    rw [hrun] at hnext
    exact hmore _ hnext

end KeepsFrom

/-! ## How a sequence succeeds -/

/-- From states with `P` work succeeds, and then its result and the state after it have `Q`. -/
def Succeeds (P : σ → Prop) (work : EStateM ε σ α) (Q : α → σ → Prop) : Prop :=
  ∀ ⦃s⦄, P s → ∃ a t, work s = .ok a t ∧ Q a t

namespace Succeeds

variable {P P' : σ → Prop} {work : EStateM ε σ α} {Q : α → σ → Prop}

theorem pure {a : α} (h : ∀ s, P s → Q a s) : Succeeds P (pure a : EStateM ε σ α) Q :=
  fun s hs => ⟨a, s, rfl, h s hs⟩

theorem bind {next : α → EStateM ε σ β} {Q' : β → σ → Prop} (hfirst : Succeeds P work Q)
    (hnext : ∀ a, Succeeds (Q a) (next a) Q') : Succeeds P (work >>= next) Q' := by
  intro s hs
  obtain ⟨a, t, hwork, ht⟩ := hfirst hs
  rw [bind_of_ok next hwork]
  exact hnext a ht

theorem before (hP : ∀ s, P' s → P s) (h : Succeeds P work Q) : Succeeds P' work Q :=
  fun s hs => h (hP s hs)

/-- What is known of a result may be used in what follows. -/
theorem given {R : Prop} (h : R → Succeeds P work Q) : Succeeds (fun s => R ∧ P s) work Q :=
  fun _ hs => h hs.1 hs.2

end Succeeds

/-! ## How a sequence fails -/

/-- Work that fails does so with an error of a kind. -/
def FailsWith (P : Error → Prop) (work : EStateM Error σ α) : Prop :=
  ∀ s e t, work s = .error e t → P e

namespace FailsWith

variable {P : Error → Prop}

theorem pure (a : α) : FailsWith P (pure a : EStateM Error σ α) := fun _ _ _ h =>
  absurd h pure_ne_error

theorem throw {e : Error} (he : P e) : FailsWith P (throw e : EStateM Error σ α) :=
  fun _ _ _ h => (throw_eq_error.mp h).1 ▸ he

theorem get : FailsWith P (get : EStateM Error σ σ) := fun _ _ _ => nofun

theorem modify (f : σ → σ) : FailsWith P (modify f : EStateM Error σ PUnit) := fun _ _ _ => nofun

theorem bind {first : EStateM Error σ α} {next : α → EStateM Error σ β}
    (hfirst : FailsWith P first) (hnext : ∀ a, FailsWith P (next a)) :
    FailsWith P (first >>= next) := fun s e t h => by
  rcases bind_eq_error.mp h with h | ⟨a, u, -, h⟩
  · exact hfirst s e t h
  · exact hnext a u e t h

theorem mono {Q : Error → Prop} {work : EStateM Error σ α} (h : FailsWith P work)
    (hmono : ∀ e, P e → Q e) : FailsWith Q work :=
  fun s e t hwork => hmono e (h s e t hwork)

end FailsWith

end Rebuild.Sequence
