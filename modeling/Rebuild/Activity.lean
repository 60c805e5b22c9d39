/-!
# Work that takes time

An activity changes a state that others may change as well while it waits. It is over, or it waits
for some time or for something to become true of the state, or it sets off another activity and goes
on beside it. `Timed` is the monad of such work: between two waits nothing else happens.

Work is given what comes after it, and so the laws of the monad hold by computation.
-/

namespace Rebuild

/-- What some work does next. -/
inductive Activity (σ : Type) where
  | over (state : σ)
  /-- Waits until the state is ready, but at most for a time if one is given. -/
  | waiting (nanos : Option Nat) (isReady : σ → Bool) (state : σ) (resume : σ → Activity σ)
  | forked (state : σ) (child : σ → Activity σ) (next : σ → Activity σ)

/-- Work on a state, given what comes after it. -/
def Timed (σ α : Type) : Type :=
  (α → σ → Activity σ) → σ → Activity σ

namespace Timed

variable {σ α : Type}

instance : Monad (Timed σ) where
  pure a := fun next s => next a s
  bind work f := fun next => work fun a => f a next

instance : LawfulMonad (Timed σ) :=
  LawfulMonad.mk' _ (fun _ => rfl) (fun _ _ => rfl) (fun _ _ _ => rfl)

instance : MonadStateOf σ (Timed σ) where
  get := fun next s => next s s
  set s := fun next _ => next () s
  modifyGet f := fun next s => next (f s).1 (f s).2

/-- Waits until the state is ready, but at most for a time if one is given. -/
def await (nanos : Option Nat) (isReady : σ → Bool) : Timed σ Unit :=
  fun next s => .waiting nanos isReady s (next ())

/-- Sets off other work and goes on beside it. -/
def fork (child : Timed σ Unit) : Timed σ Unit :=
  fun next s => .forked s (child fun _ => .over) (next ())

end Timed

end Rebuild
