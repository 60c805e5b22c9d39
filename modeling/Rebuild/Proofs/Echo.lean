/-!
# Steps that echo others

Steps echo others if they succeed whenever those do, from related states, with related results. It
is enough to know this of the parts of which the steps are made. The size is that of what is left to
do, which the steps that are echoed never make larger.
-/

namespace Rebuild

variable {ε σ α β : Type}

/-- From states related by `P`, whenever the first steps succeed the second ones do. The results are
related by `V` and the states after them by `Q`, which may depend on the first result. The first
steps leave nothing larger than it was. -/
def Echoes (size : σ → Nat) (P : σ → σ → Prop) (first second : EStateM ε σ α) (V : α → α → Prop)
    (Q : α → σ → σ → Prop) : Prop :=
  ∀ ⦃s s'⦄, P s s' → ∀ ⦃a t⦄, first s = .ok a t →
    size t ≤ size s ∧ ∃ a' t', second s' = .ok a' t' ∧ V a a' ∧ Q a t t'

namespace Echoes

variable {size : σ → Nat} {P P' : σ → σ → Prop} {first second : EStateM ε σ α}
  {V : α → α → Prop} {Q : α → σ → σ → Prop}

theorem pure {a a' : α} (hV : V a a') (hP : ∀ s s', P s s' → Q a s s') :
    Echoes size P (pure a : EStateM ε σ α) (pure a') V Q := by
  rintro s s' h _ _ ⟨⟩
  exact ⟨Nat.le_refl _, a', s', rfl, hV, hP s s' h⟩

theorem throw (e : ε) (second : EStateM ε σ α) :
    Echoes size P (throw e : EStateM ε σ α) second V Q := nofun

theorem bind {next next' : α → EStateM ε σ β} {W : β → β → Prop} {Q' : β → σ → σ → Prop}
    (hfirst : Echoes size P first second V Q)
    (hnext : ∀ a a', V a a' → Echoes size (Q a) (next a) (next' a') W Q') :
    Echoes size P (first >>= next) (second >>= next') W Q' := by
  intro s s' h b u hrun
  replace hrun : EStateM.bind first next s = .ok b u := hrun
  unfold EStateM.bind at hrun
  split at hrun
  · next a t hfirstrun =>
    obtain ⟨hle, a', t', hsecond, hV, hQ⟩ := hfirst h hfirstrun
    obtain ⟨hle', b', u', hrun', hrest⟩ := hnext a a' hV hQ hrun
    refine ⟨Nat.le_trans hle' hle, b', u', ?_, hrest⟩
    show EStateM.bind second next' s' = .ok b' u'
    rw [EStateM.bind, hsecond]
    exact hrun'
  · cases hrun

theorem get {next next' : σ → EStateM ε σ β} {W : β → β → Prop} {Q' : β → σ → σ → Prop}
    (h : ∀ s s', P s s' → Echoes size P (next s) (next' s') W Q') :
    Echoes size P (get >>= next) (get >>= next') W Q' :=
  fun s s' hs _ _ hrun => h s s' hs hs hrun

theorem throw_bind (e : ε) (next : α → EStateM ε σ β) (second : EStateM ε σ β)
    {V : β → β → Prop} {Q : β → σ → σ → Prop} :
    Echoes size P ((MonadExcept.throw e : EStateM ε σ α) >>= next) second V Q := nofun

theorem ite {b b' : Prop} [Decidable b] [Decidable b'] (hb : b ↔ b')
    {other other' : EStateM ε σ α} (hthen : Echoes size P first second V Q)
    (helse : Echoes size P other other' V Q) :
    Echoes size P (if b then first else other) (if b' then second else other') V Q := by
  by_cases h : b
  · rwa [if_pos h, if_pos (hb.mp h)]
  · rwa [if_neg h, if_neg (mt hb.mpr h)]

theorem before (h : Echoes size P first second V Q) (hP : ∀ s s', P' s s' → P s s') :
    Echoes size P' first second V Q :=
  fun s s' hs _ _ hrun => h (hP s s' hs) hrun

/-- A bound on the size is kept. -/
theorem within (h : Echoes size P first second V Q) (n : Nat) :
    Echoes size (fun s s' => P s s' ∧ size s < n) first second V
      fun a s s' => Q a s s' ∧ size s < n := by
  intro s s' hs a t hrun
  obtain ⟨hle, a', t', hrun', hV, ht⟩ := h hs.1 hrun
  exact ⟨hle, a', t', hrun', hV, ht, Nat.lt_of_le_of_lt hle hs.2⟩

/-- Steps that always make the state smaller lower a bound on its size. -/
theorem lower (h : Echoes size P first second V Q)
    (hlt : ∀ s a t, first s = .ok a t → size t < size s) (n : Nat) :
    Echoes size (fun s s' => P s s' ∧ size s < n + 1) first second V
      fun a s s' => Q a s s' ∧ size s < n := by
  intro s s' hs a t hrun
  obtain ⟨hle, a', t', hrun', hV, ht⟩ := h hs.1 hrun
  exact ⟨hle, a', t', hrun', hV, ht, Nat.lt_of_lt_of_le (hlt s a t hrun) (Nat.le_of_lt_succ hs.2)⟩

end Echoes

end Rebuild
