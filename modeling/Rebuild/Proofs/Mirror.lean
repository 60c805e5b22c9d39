import Rebuild.Proofs.Sequence

/-!
# Steps that mirror each other

Steps mirror each other if from related states both succeed, with related results, or both fail with
the same error. It is enough to know this of the parts of which the steps are made.
-/

namespace Rebuild

variable {ε σ α β : Type}

/-- From states related by `P`, both steps succeed or both fail. If they succeed the results are
related by `V` and the states by `Q`, which may depend on the first result; if they fail it is with
the same error, and the states are related by `F`. -/
def Mirrors (P : σ → σ → Prop) (first second : EStateM ε σ α) (V : α → α → Prop)
    (Q : α → σ → σ → Prop) (F : σ → σ → Prop) : Prop :=
  ∀ ⦃s s'⦄, P s s' →
    (∃ a a' t t', first s = .ok a t ∧ second s' = .ok a' t' ∧ V a a' ∧ Q a t t') ∨
    ∃ e t t', first s = .error e t ∧ second s' = .error e t' ∧ F t t'

namespace Mirrors

variable {P P' : σ → σ → Prop} {first second : EStateM ε σ α} {V : α → α → Prop}
  {Q : α → σ → σ → Prop} {F : σ → σ → Prop}

theorem pure {a a' : α} (hV : V a a') (hP : ∀ s s', P s s' → Q a s s') :
    Mirrors P (pure a : EStateM ε σ α) (pure a') V Q F :=
  fun s s' h => .inl ⟨a, a', s, s', rfl, rfl, hV, hP s s' h⟩

theorem throw (e : ε) (hP : ∀ s s', P s s' → F s s') :
    Mirrors P (throw e : EStateM ε σ α) (throw e) V Q F :=
  fun s s' h => .inr ⟨e, s, s', rfl, rfl, hP s s' h⟩

theorem bind {next next' : α → EStateM ε σ β} {W : β → β → Prop} {Q' : β → σ → σ → Prop}
    (hfirst : Mirrors P first second V Q F)
    (hnext : ∀ a a', V a a' → Mirrors (Q a) (next a) (next' a') W Q' F) :
    Mirrors P (first >>= next) (second >>= next') W Q' F := by
  intro s s' h
  obtain ⟨a, a', t, t', hrun, hrun', hV, hQ⟩ | ⟨e, t, t', hrun, hrun', hF⟩ := hfirst h
  · rw [Sequence.bind_of_ok next hrun, Sequence.bind_of_ok next' hrun']
    exact hnext a a' hV hQ
  · rw [Sequence.bind_of_error next hrun, Sequence.bind_of_error next' hrun']
    exact .inr ⟨e, t, t', rfl, rfl, hF⟩

theorem throw_bind (e : ε) {next next' : α → EStateM ε σ β} {V : β → β → Prop}
    {Q : β → σ → σ → Prop} (hP : ∀ s s', P s s' → F s s') :
    Mirrors P ((MonadExcept.throw e : EStateM ε σ α) >>= next)
      ((MonadExcept.throw e : EStateM ε σ α) >>= next') V Q F :=
  fun s s' h => .inr ⟨e, s, s', rfl, rfl, hP s s' h⟩

/-- The same result is used in the same way. -/
theorem bindEq {next next' : α → EStateM ε σ β} {W : β → β → Prop} {Q' : β → σ → σ → Prop}
    (hfirst : Mirrors P first second Eq Q F)
    (hnext : ∀ a, Mirrors (Q a) (next a) (next' a) W Q' F) :
    Mirrors P (first >>= next) (second >>= next') W Q' F :=
  hfirst.bind fun a _ h => h ▸ hnext a

theorem ite {b b' : Prop} [Decidable b] [Decidable b'] (hb : b ↔ b')
    {other other' : EStateM ε σ α} (hthen : Mirrors P first second V Q F)
    (helse : Mirrors P other other' V Q F) :
    Mirrors P (if b then first else other) (if b' then second else other') V Q F := by
  by_cases h : b
  · rwa [if_pos h, if_pos (hb.mp h)]
  · rwa [if_neg h, if_neg (mt hb.mpr h)]

theorem before (h : Mirrors P first second V Q F) (hP : ∀ s s', P' s s' → P s s') :
    Mirrors P' first second V Q F :=
  fun s s' hs => h (hP s s' hs)

theorem after {Q' : α → σ → σ → Prop} (h : Mirrors P first second V Q F)
    (hQ : ∀ a s s', Q a s s' → Q' a s s') : Mirrors P first second V Q' F := by
  intro s s' hs
  obtain ⟨a, a', t, t', hrun, hrun', hV, ht⟩ | herror := h hs
  · exact .inl ⟨a, a', t, t', hrun, hrun', hV, hQ a t t' ht⟩
  · exact .inr herror

/-- Steps that mirror themselves keep states related to themselves. -/
theorem self (h : Mirrors P first first V Q F) {s t : σ} {a : α} (hs : P s s)
    (hrun : first s = .ok a t) : Q a t t := by
  obtain ⟨_, _, _, _, hrun₁, hrun₂, -, hQ⟩ | ⟨_, _, _, herror, -⟩ := h hs
  · cases hrun.symm.trans hrun₁
    cases hrun.symm.trans hrun₂
    exact hQ
  · cases hrun.symm.trans herror

end Mirrors

end Rebuild
