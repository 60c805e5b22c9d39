import Rebuild.Proofs.Scopes
import Rebuild.Proofs.Substitution

/-!
# Bindings that extend earlier ones

A binding may refer to its own name and then means what was bound before. Since such references are
replaced when the variable is bound, no stored template refers to its own name, and a reference to
the variable has the value that the template had before it was bound. Other variables may come back
to the name; in them it stands for the new binding from then on.
-/

namespace Rebuild

namespace Environment

variable {env : Environment} {name other : String} {fragments : List Fragment}

theorem findIn_append (env env' : Environment) (name : String) :
    find? (env ++ env') name = (env.find? name).or (env'.find? name) := by
  induction env with
  | nil => rfl
  | cons entry env ih =>
    rw [List.cons_append, find?, find?, Bindings.findIn, Bindings.findIn]
    split
    · rfl
    · exact ih

theorem Refers.of_without {first : String} (h : (env.without name).Refers first other) :
    env.Refers first other := by
  obtain ⟨value, hbound, href⟩ := h
  rw [find?_without] at hbound
  split at hbound
  · cases hbound
  · exact ⟨value, hbound, href⟩

theorem Mentions.of_without (h : (env.without name).Mentions fragments other) :
    env.Mentions fragments other := by
  obtain ⟨first, href, hreach⟩ := h
  exact ⟨first, href, hreach.lift id fun _ _ hrefers => hrefers.of_without⟩

end Environment

namespace Template

open Environment (Mentions Refers)

variable {env env' : Environment} {name : String} {fragments : List Fragment}

/-! ## What values depend on -/

/-- Values depend on what is looked up only. -/
theorem evalFragments_congr (h : ∀ name, env'.find? name = env.find? name)
    (fragments : List Fragment) : evalFragments env' fragments = evalFragments env fragments := by
  induction env, fragments using evalFragments.induct generalizing env' with
  | case1 env => rw [evalFragments, evalFragments]
  | case2 env text rest ih => rw [evalFragments_literal, evalFragments_literal, ih h]
  | case3 env name rest ihvalue ih =>
    rw [evalFragments_var, evalFragments_var, ih h]
    congr 1
    cases hbound : env.find? name with
    | none =>
      rw [Environment.expand_of_none hbound, Environment.expand_of_none ((h name).trans hbound)]
    | some value =>
      rw [Environment.expand_of_some hbound, Environment.expand_of_some ((h name).trans hbound)]
      refine ihvalue value hbound fun other => ?_
      rw [Environment.find?_without, Environment.find?_without, h other]

theorem evalFragments_append (env : Environment) (fragments rest : List Fragment) :
    evalFragments env (fragments ++ rest) =
      evalFragments env fragments ++ evalFragments env rest := by
  induction fragments with
  | nil => rw [List.nil_append, evalFragments, String.empty_append]
  | cons fragment fragments ih =>
    cases fragment with
    | literal text =>
      rw [List.cons_append, evalFragments_literal, evalFragments_literal, ih, String.append_assoc]
    | var name =>
      rw [List.cons_append, evalFragments_var, evalFragments_var, ih, String.append_assoc]

theorem evalFragments_appendLiteral (env : Environment) (text : String)
    (fragments : List Fragment) :
    evalFragments env (appendLiteral text fragments) = evalFragments env fragments ++ text := by
  fun_induction appendLiteral text fragments with
  | case1 => simp [evalFragments]
  | case2 last => simp [evalFragments]
  | case3 fragment rest _ ih =>
    rw [← List.singleton_append, evalFragments_append, ih, ← String.append_assoc,
      ← evalFragments_append, List.singleton_append]

theorem eval_push (t : Template) (fragment : Fragment) (env : Environment) :
    (t.push fragment).eval env = t.eval env ++ evalFragments env [fragment] := by
  cases fragment with
  | var name => exact evalFragments_append ..
  | literal text =>
    rw [evalFragments_literal, evalFragments, String.append_empty, push, pushLiteral]
    split
    · next h => rw [h, String.append_empty]
    · exact evalFragments_appendLiteral ..

/-- Literals that are joined leave the value as it is. -/
theorem eval_ofFragments (fragments : List Fragment) (env : Environment) :
    (ofFragments fragments).eval env = evalFragments env fragments := by
  have hfold : ∀ t : Template,
      (fragments.foldl push t).eval env = t.eval env ++ evalFragments env fragments := by
    induction fragments with
    | nil => intro t; simp [evalFragments]
    | cons fragment fragments ih =>
      intro t
      rw [List.foldl_cons, ih, eval_push, String.append_assoc, ← evalFragments_append,
        List.singleton_append]
  rw [ofFragments, hfold, eval, empty, evalFragments, String.empty_append]

/-! ## References -/

theorem var_mem_appendLiteral {text : String} :
    .var name ∈ appendLiteral text fragments ↔ .var name ∈ fragments := by
  fun_induction appendLiteral text fragments with
  | case1 => simp
  | case2 last => simp
  | case3 fragment rest _ ih => rw [List.mem_cons, List.mem_cons, ih]

theorem var_mem_push {t : Template} {fragment : Fragment} :
    .var name ∈ (t.push fragment).fragments ↔ .var name ∈ t.fragments ∨ .var name = fragment := by
  cases fragment with
  | var other => simp [push, pushVar]
  | literal text =>
    rw [push, pushLiteral]
    split
    · simp
    · simp [var_mem_appendLiteral]

theorem var_mem_ofFragments :
    .var name ∈ (ofFragments fragments).fragments ↔ .var name ∈ fragments := by
  have hfold : ∀ t : Template, .var name ∈ (fragments.foldl push t).fragments ↔
      .var name ∈ t.fragments ∨ .var name ∈ fragments := by
    induction fragments with
    | nil => simp
    | cons fragment fragments ih =>
      intro t
      rw [List.foldl_cons, ih, var_mem_push, List.mem_cons, or_assoc]
  rw [ofFragments, hfold]
  simp [empty]

theorem references_iff {t : Template} : t.references name = true ↔ .var name ∈ t.fragments := by
  rw [references, List.contains_iff_mem]

/-- A variable that has been replaced is not referred to, unless by what it was replaced by. -/
theorem references_inlineVar {t : Template} {replacement : Option Template}
    (h : ∀ value, replacement = some value → value.references name = false) :
    (t.inlineVar name replacement).references name = false := by
  rw [← Bool.not_eq_true, references_iff, inlineVar, var_mem_ofFragments, List.mem_flatMap]
  rintro ⟨fragment, -, hmem⟩
  split at hmem
  · cases replacement with
    | none => cases hmem
    | some value =>
      have hvalue := h value rfl
      rw [← Bool.not_eq_true, references_iff] at hvalue
      exact hvalue hmem
  · next hne => exact hne (List.mem_singleton.mp hmem).symm

/-! ## Bindings that refer to their own name -/

/-- Nothing is drawn in by references to a name if there are none. -/
theorem not_draws (href : .var name ∉ fragments)
    (hothers : ∀ other, other ≠ name → env.Mentions fragments other → ¬env.Refers other name) :
    ¬Draws name env fragments := by
  intro hdraws
  induction hdraws with
  | here reference => exact href reference
  | within reference bound apart _ ih =>
    refine ih (fun hmem => ?_) fun next hnext hmention hrefers => ?_
    · exact hothers _ apart (.direct reference) ⟨_, bound, hmem⟩
    · exact hothers next hnext (hmention.of_without.through reference bound) hrefers.of_without

theorem evalFragments_without_of_mentions (href : .var name ∉ fragments)
    (hothers : ∀ other, other ≠ name → env.Mentions fragments other → ¬env.Refers other name) :
    evalFragments (env.without name) fragments = evalFragments env fragments :=
  (evalFragments_without name env fragments).eq_iff.mpr (not_draws href hothers)

/-- A template in which the references to a name are replaced has the value that it had before, also
where the name is unbound. -/
theorem eval_inlineVar {t : Template}
    (hothers : ∀ other, other ≠ name → env.Mentions t.fragments other → ¬env.Refers other name) :
    (t.inlineVar name (env.find? name)).eval (env.without name) = t.eval env := by
  rw [inlineVar, eval_ofFragments, eval]
  generalize t.fragments = fragments at hothers
  induction fragments with
  | nil => rw [List.flatMap_nil, evalFragments, evalFragments]
  | cons fragment fragments ih =>
    have hrest := ih fun other hne h => hothers other hne (h.mono (List.subset_cons_self ..))
    have hsplit : evalFragments env (fragment :: fragments) =
        evalFragments env [fragment] ++ evalFragments env fragments :=
      evalFragments_append env [fragment] fragments
    rw [List.flatMap_cons, evalFragments_append, hrest, hsplit]
    congr 1
    by_cases hvar : fragment = .var name
    · subst hvar
      rw [if_pos rfl, evalFragments_var, evalFragments, String.append_empty, Environment.expand]
      cases env.find? name with
      | none => rw [Option.getD_none, empty, evalFragments]
      | some value => rfl
    · rw [if_neg hvar]
      refine evalFragments_without_of_mentions (by simpa [eq_comm] using hvar) fun other hne h => ?_
      exact hothers other hne (h.mono (by simp))

end Template

namespace Scopes

variable {s : Scopes} {scope inner parent : ScopeId} {name other : String} {value : Template}

/-! ## Lookups -/

theorem find?_environment (s : Scopes) (scope : ScopeId) (name : String) :
    (s.environment scope).find? name = s.findVar? scope name := by
  rw [environment, findVar?]
  induction s.ancestors scope with
  | nil => rfl
  | cons first rest ih =>
    rw [List.flatMap_cons, Environment.findIn_append, ih, List.findSome?_cons]
    show (first.vars.find? name).or _ = _
    cases first.vars.find? name <;> rfl

/-- A name is looked up in a scope, then in the scope around it. -/
theorem findVar?_eq (s : Scopes) (scope : ScopeId) (name : String) :
    s.findVar? scope name = ((s.get scope).vars.find? name).or
      (match (s.get scope).parent with
        | some parent => if parent < scope then s.findVar? parent name else none
        | none => none) := by
  rw [findVar?, ancestors, List.findSome?_cons]
  cases (s.get scope).vars.find? name with
  | some value => rfl
  | none =>
    cases (s.get scope).parent with
    | none => rfl
    | some parent =>
      dsimp only [Option.or]
      split
      · rfl
      · rfl

/-- What a scope stores for a name when it is bound there. -/
def stored (s : Scopes) (scope : ScopeId) (name : String) (value : Template) : Template :=
  if value.references name then value.inlineVar name (s.findVar? scope name) else value

theorem get_bind (s : Scopes) (scope : ScopeId) (name : String) (value : Template)
    (inner : ScopeId) : (s.bind scope name value).get inner =
      if scope = inner ∧ inner < s.all.size then
        { s.get inner with vars := (s.get inner).vars.bind name (s.stored scope name value) }
      else s.get inner :=
  get_modify ..

theorem parent_bind (s : Scopes) (scope : ScopeId) (name : String) (value : Template)
    (inner : ScopeId) : ((s.bind scope name value).get inner).parent = (s.get inner).parent := by
  rw [get_bind]
  split
  · rfl
  · rfl

/-- In its own scope a variable is found as it is stored. -/
theorem findVar?_bind_self (hscope : scope < s.all.size) :
    (s.bind scope name value).findVar? scope name = some (s.stored scope name value) := by
  rw [findVar?_eq, get_bind, if_pos ⟨rfl, hscope⟩]
  dsimp only
  rw [Bindings.find?_bind, if_pos rfl, Option.some_or]

theorem find?_bind_of_ne (hne : other ≠ name) (inner : ScopeId) :
    ((s.bind scope name value).get inner).vars.find? other =
      (s.get inner).vars.find? other := by
  rw [get_bind]
  split
  · exact (Bindings.find?_bind ..).trans (if_neg hne)
  · rfl

/-- Binding a variable does nothing to others. -/
theorem findVar?_bind_of_ne (hne : other ≠ name) (inner : ScopeId) :
    (s.bind scope name value).findVar? inner other = s.findVar? inner other := by
  induction inner using Nat.strongRecOn with
  | ind inner ih =>
    rw [findVar?_eq, findVar?_eq, find?_bind_of_ne hne, parent_bind]
    congr 1
    cases (s.get inner).parent with
    | none => rfl
    | some parent =>
      dsimp only
      split
      · next hlt => exact ih parent hlt
      · rfl

/-- A scope is another one or inside of it. -/
inductive Within (s : Scopes) (outer : ScopeId) : ScopeId → Prop where
  | refl : Within s outer outer
  | child {inner parent : ScopeId} (hparent : (s.get inner).parent = some parent)
    (h : Within s outer parent) : Within s outer inner

/-- Outside of its scope nothing is seen of a variable. -/
theorem findVar?_bind_of_not_within (houtside : ¬s.Within scope inner) (other : String) :
    (s.bind scope name value).findVar? inner other = s.findVar? inner other := by
  induction inner using Nat.strongRecOn with
  | ind inner ih =>
    have hget : (s.bind scope name value).get inner = s.get inner := by
      rw [get_bind, if_neg]
      rintro ⟨rfl, -⟩
      exact houtside .refl
    rw [findVar?_eq, findVar?_eq, hget]
    congr 1
    cases hparent : (s.get inner).parent with
    | none => rfl
    | some parent =>
      dsimp only
      split
      · next hlt => exact ih parent hlt fun h => houtside (.child hparent h)
      · rfl

/-! ## Stored templates -/

/-- No variable's template refers to the variable itself. -/
def Unfolded (s : Scopes) : Prop :=
  ∀ inner name template, (s.get inner).vars.find? name = some template →
    template.references name = false

theorem Unfolded.findVar? (h : s.Unfolded) {template : Template}
    (hfind : s.findVar? scope name = some template) : template.references name = false := by
  induction scope using Nat.strongRecOn with
  | ind scope ih =>
    rw [findVar?_eq, Option.or_eq_some_iff] at hfind
    obtain hfind | ⟨-, hfind⟩ := hfind
    · exact h scope name template hfind
    · split at hfind
      · split at hfind
        · next parent _ hlt => exact ih parent hlt hfind
        · cases hfind
      · cases hfind

theorem Unfolded.stored (h : s.Unfolded) (scope : ScopeId) (name : String) (value : Template) :
    (s.stored scope name value).references name = false := by
  rw [Scopes.stored]
  split
  · exact Template.references_inlineVar fun template hfind => h.findVar? hfind
  · next hno => exact Bool.eq_false_iff.mpr hno

theorem Unfolded.bind (h : s.Unfolded) (scope : ScopeId) (name : String) (value : Template) :
    (s.bind scope name value).Unfolded := by
  intro inner other template hfind
  by_cases hother : other = name
  · subst hother
    rw [get_bind] at hfind
    split at hfind
    · rw [Bindings.find?_bind, if_pos rfl] at hfind
      cases hfind
      exact h.stored scope other value
    · exact h inner other template hfind
  · rw [find?_bind_of_ne hother] at hfind
    exact h inner other template hfind

/-- Scopes that come about by creating scopes in others, binding variables and declaring rules. -/
inductive Built : Scopes → Prop where
  | initial : Built .initial
  | addChild {s : Scopes} {parent : ScopeId} (h : Built s) (hparent : parent < s.all.size) :
    Built (s.addChild parent).2
  | bind {s : Scopes} {scope : ScopeId} (h : Built s) (hscope : scope < s.all.size) (name : String)
    (value : Template) : Built (s.bind scope name value)
  | addRule {s s' : Scopes} {scope : ScopeId} {name : String} {rule : RuleId} (h : Built s)
    (hrule : s.addRule? scope name rule = some s') : Built s'

theorem Built.unfolded (h : Built s) : s.Unfolded := by
  induction h with
  | initial =>
    intro inner name template hfind
    have hempty : Scopes.initial.get inner = Scope.inside none := by
      cases inner with
      | zero => rfl
      | succ inner => rfl
    rw [hempty] at hfind
    cases hfind
  | @addChild s parent _ _ ih =>
    intro inner name template hfind
    rw [get_addChild] at hfind
    split at hfind
    · cases hfind
    · exact ih inner name template hfind
  | bind _ _ name value ih => exact ih.bind _ name value
  | @addRule s s' scope name rule _ hrule ih =>
    intro inner other template hfind
    unfold addRule? at hrule
    split at hrule
    · cases hrule
    · cases hrule
      rw [get_modify] at hfind
      split at hfind
      · exact ih inner other template hfind
      · exact ih inner other template hfind

/-- To bind a variable changes what is found under its name in its scope and in those inside of it,
and nothing else. What is stored never refers to the name itself: where the template does, what was
bound before takes the place of the reference. So if no other variable that is reached from the
template comes back to the name, a reference to the variable has the value that the template had
before. -/
theorem bind_extends (hbuilt : Built s) (hscope : scope < s.all.size) (name : String)
    (value : Template) :
    (s.Unfolded ∧ (s.bind scope name value).Unfolded) ∧
    (∀ inner other, other ≠ name →
      (s.bind scope name value).findVar? inner other = s.findVar? inner other) ∧
    (∀ inner, ¬s.Within scope inner → ∀ other,
      (s.bind scope name value).findVar? inner other = s.findVar? inner other) ∧
    ((∀ other, other ≠ name → (s.environment scope).Mentions value.fragments other →
        ¬(s.environment scope).Refers other name) →
      (s.bind scope name value).eval scope (Template.empty.pushVar name) = s.eval scope value) := by
  have hunfolded := hbuilt.unfolded
  refine ⟨⟨hunfolded, hunfolded.bind scope name value⟩,
    fun inner other hne => findVar?_bind_of_ne hne inner,
    fun inner houtside => findVar?_bind_of_not_within houtside, fun hothers => ?_⟩
  have hself : ((s.bind scope name value).environment scope).find? name =
      some (s.stored scope name value) :=
    (find?_environment ..).trans (findVar?_bind_self hscope)
  -- while the variable is expanded all others are found as before
  have hwithout : ∀ other, (((s.bind scope name value).environment scope).without name).find? other =
      ((s.environment scope).without name).find? other := fun other => by
    rw [Environment.find?_without, Environment.find?_without]
    by_cases hother : other = name
    · rw [if_pos hother, if_pos hother]
    · rw [if_neg hother, if_neg hother, find?_environment, find?_environment,
        findVar?_bind_of_ne hother]
  rw [eval, Template.eval_pushVar, Environment.expand_of_some hself, Template.eval,
    Template.evalFragments_congr hwithout, eval]
  rw [stored]
  split
  · rw [← find?_environment]
    exact Template.eval_inlineVar hothers
  · next hno =>
    exact Template.evalFragments_without_of_mentions (mt Template.references_iff.mpr hno) hothers

/-- A scope inside the root scope, where flags are bound. -/
def flagScopes : Scopes :=
  ((Scopes.initial.bind root "flags" (.literal "-Wall")).addChild root).2

/-- The flags that were bound before, with a level that is given nowhere. -/
def moreFlags : Template := ((Template.empty.pushVar "flags").pushLiteral " -O").pushVar "level"

/-- In the inner scope the flags are extended, in the root scope they are what they were. -/
theorem bind_extends_flags : (flagScopes.bind 1 "flags" moreFlags).Unfolded ∧
    (flagScopes.bind 1 "flags" moreFlags).findVar? root "flags" = some (.literal "-Wall") ∧
    (flagScopes.bind 1 "flags" moreFlags).eval 1 (Template.empty.pushVar "flags") =
      "-Wall -O" := by
  have hbuilt : Built flagScopes := .addChild (.bind .initial (by decide) ..) (by decide)
  have hscope : 1 < flagScopes.all.size := by decide
  obtain ⟨⟨-, hunfolded⟩, -, houtside, hextends⟩ := bind_extends hbuilt hscope "flags" moreFlags
  have hroot : ¬flagScopes.Within 1 root := by
    rintro (_ | ⟨hparent, -⟩)
    cases hparent
  have henv : flagScopes.environment 1 = [("flags", .literal "-Wall")] := by cbv
  have hfound : flagScopes.findVar? root "flags" = some (.literal "-Wall") := by cbv
  have hvalue : flagScopes.eval 1 moreFlags = "-Wall -O" := by cbv
  refine ⟨hunfolded, (houtside root hroot "flags").trans hfound, (hextends ?_).trans hvalue⟩
  rintro other hne - ⟨template, hbound, -⟩
  rw [henv, Environment.find?, Bindings.findIn, if_neg (Ne.symm hne)] at hbound
  cases hbound

end Scopes

end Rebuild
