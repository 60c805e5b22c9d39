import Rebuild.Scope

/-!
# What is seen in scopes

What binding a variable, declaring a rule and creating a scope do to each scope, and how names are
looked up around a scope. A template that is just a text has that text for its value, whatever is
bound, so binding one binds it as it is.
-/

namespace Rebuild

namespace Template

@[simp] theorem fragments_literal (text : String) :
    (literal text).fragments = if text = "" then [] else [.literal text] := by
  unfold literal pushLiteral
  split <;> rfl

@[simp] theorem eval_literal (text : String) (env : Environment) :
    (literal text).eval env = text := by
  rw [eval, fragments_literal]
  split
  · next h => simp [h, evalFragments]
  · simp [evalFragments]

@[simp] theorem references_literal (text name : String) :
    (literal text).references name = false := by
  rw [references, fragments_literal]
  split <;> simp

end Template

namespace Scopes

variable {s t : Scopes} {scope parent : ScopeId} {name : String}

@[simp] theorem size_bind (s : Scopes) (scope : ScopeId) (name : String) (value : Template) :
    (s.bind scope name value).all.size = s.all.size := by
  simp [bind]

theorem get_modify (s : Scopes) (scope other : Nat) (f : Scope → Scope) :
    Scopes.get ⟨s.all.modify scope f⟩ other =
      if scope = other ∧ other < s.all.size then f (s.get other) else s.get other := by
  simp only [Scopes.get, Array.getD_eq_getD_getElem?, Array.getElem?_modify]
  by_cases hother : other < s.all.size <;> by_cases h : scope = other <;> simp [h, hother]

theorem rules_bind (s : Scopes) (scope : ScopeId) (name : String) (value : Template)
    (other : ScopeId) : ((s.bind scope name value).get other).rules = (s.get other).rules := by
  rw [bind, get_modify]
  split <;> rfl

/-- A literal is bound as it is. -/
theorem vars_bind_literal (hscope : scope < s.all.size) (name text : String) :
    ((s.bind scope name (.literal text)).get scope).vars =
      (s.get scope).vars.bind name (.literal text) := by
  rw [bind, get_modify, if_pos ⟨rfl, hscope⟩]
  simp

theorem get_addChild (s : Scopes) (parent other : ScopeId) : (s.addChild parent).2.get other =
    if other = s.all.size then Scope.inside (some parent) else s.get other := by
  simp only [addChild, Scopes.get, Array.getD_eq_getD_getElem?, Array.getElem?_push]
  split <;> simp

theorem rules_addRule? {s' : Scopes} {rule : RuleId} (h : s.addRule? scope name rule = some s')
    (other : ScopeId) : (s'.get other).rules = (s.get other).rules ∨
      (s'.get other).rules = (s.get other).rules.bind name rule := by
  unfold addRule? at h
  split at h
  · cases h
  · cases h
    rw [get_modify]
    split
    · exact .inr rfl
    · exact .inl rfl

/-! ## Scopes around a scope -/

/-- The scopes around a scope are older than it, so newer ones do not matter. -/
theorem ancestors_congr (h : ∀ i ≤ scope, t.get i = s.get i) :
    t.ancestors scope = s.ancestors scope := by
  induction scope using Nat.strongRecOn with
  | ind scope ih =>
    rw [ancestors, ancestors, h scope (Nat.le_refl _)]
    congr 1
    cases (s.get scope).parent with
    | none => rfl
    | some parent =>
      dsimp only
      split
      · next hlt => exact ih parent hlt fun i hi => h i (Nat.le_trans hi (Nat.le_of_lt hlt))
      · rfl

theorem ancestors_of_parent (h : (s.get scope).parent = some parent) (hlt : parent < scope) :
    s.ancestors scope = s.get scope :: s.ancestors parent := by
  rw [ancestors, h]
  dsimp only
  rw [if_pos hlt]

/-- A name that a scope does not bind is looked up around it. -/
theorem findVar?_of_parent (h : (s.get scope).parent = some parent) (hlt : parent < scope)
    (hname : (s.get scope).vars.find? name = none) :
    s.findVar? scope name = s.findVar? parent name := by
  rw [findVar?, ancestors_of_parent h hlt, List.findSome?_cons, hname]
  rfl

theorem findRule?_of_parent (h : (s.get scope).parent = some parent) (hlt : parent < scope)
    (hname : (s.get scope).rules.find? name = none) :
    s.findRule? scope name = s.findRule? parent name := by
  rw [findRule?, ancestors_of_parent h hlt, List.findSome?_cons, hname]
  rfl

end Scopes

end Rebuild
