import Mathlib
import Rebuild.Proofs.Expansion

/-!
# Substitution

What evaluation does is to replace references by what they stand for, again and again, except that a
reference to a variable that is being expanded already stands for nothing. Because of the exception
there are never more expansions one within the other than bound names. Without it the replacing
comes to an end exactly if no variable that is reached refers to itself, directly or through others,
and then the exception is never met: the value is what the replacing leaves.
-/

namespace Rebuild

namespace Environment

variable {env : Environment} {name other : String} {fragments : List Fragment} {value : Template}

/-- The bound names. -/
def names (env : Environment) : Finset String := (env.map (·.1)).toFinset

theorem mem_names (h : env.find? name = some value) : name ∈ env.names := by
  rw [find?] at h
  induction env with
  | nil => cases h
  | cons entry env ih =>
    rw [names, List.map_cons, List.toFinset_cons]
    rw [Bindings.findIn] at h
    split at h
    · next heq => exact Finset.mem_insert.mpr (.inl heq.symm)
    · exact Finset.mem_insert_of_mem (ih h)

theorem names_without (env : Environment) (name : String) :
    (env.without name).names = env.names.erase name := by
  ext other
  simp only [names, without, List.mem_toFinset, List.mem_map, List.mem_filter, Finset.mem_erase,
    decide_eq_true_eq]
  constructor
  · rintro ⟨entry, ⟨hmem, hne⟩, rfl⟩
    exact ⟨hne, entry, hmem, rfl⟩
  · rintro ⟨hne, entry, hmem, rfl⟩
    exact ⟨entry, ⟨hmem, hne⟩, rfl⟩

/-- There is one bound name less. -/
theorem card_names_without (h : env.find? name = some value) :
    (env.without name).names.card + 1 = env.names.card := by
  rw [names_without]
  exact Finset.card_erase_add_one (mem_names h)

/-- In an environment that is otherwise the same, some variables are unbound. -/
def Unbinds (env : Environment) (names : List String) (inner : Environment) : Prop :=
  ∀ name, inner.find? name = if name ∈ names then none else env.find? name

theorem Unbinds.nil (env : Environment) : env.Unbinds [] env := by
  intro name
  rw [if_neg List.not_mem_nil]

theorem Unbinds.cons {names : List String} {inner : Environment} (h : env.Unbinds names inner)
    (name : String) : env.Unbinds (name :: names) (inner.without name) := by
  intro other
  rw [find?_without, h other]
  by_cases hother : other = name <;> simp [hother]

/-- The template of a variable refers to another variable. -/
def Refers (env : Environment) (name other : String) : Prop :=
  ∃ value, env.find? name = some value ∧ .var other ∈ value.fragments

/-- A variable is reached from references among fragments. -/
def Mentions (env : Environment) (fragments : List Fragment) (name : String) : Prop :=
  ∃ first, .var first ∈ fragments ∧ Relation.ReflTransGen env.Refers first name

theorem Mentions.direct (h : .var name ∈ fragments) : env.Mentions fragments name :=
  ⟨name, h, .refl⟩

/-- What is reached from the template of a variable is reached from a reference to it. -/
theorem Mentions.through (href : .var name ∈ fragments) (hbound : env.find? name = some value)
    (h : env.Mentions value.fragments other) : env.Mentions fragments other := by
  obtain ⟨first, hfirst, hreach⟩ := h
  exact ⟨name, href, .head ⟨value, hbound, hfirst⟩ hreach⟩

theorem Mentions.mono {fragments' : List Fragment} (h : env.Mentions fragments name)
    (hsub : fragments ⊆ fragments') : env.Mentions fragments' name := by
  obtain ⟨first, hfirst, hreach⟩ := h
  exact ⟨first, hsub hfirst, hreach⟩

/-- The way to a variable that comes back to itself has a first step. -/
theorem exists_refers_of_cycle {first : String} (hreach : Relation.ReflTransGen env.Refers first name)
    (hcycle : Relation.TransGen env.Refers name name) :
    ∃ next, env.Refers first next ∧ Relation.ReflTransGen env.Refers next name := by
  obtain rfl | hnext := hreach.cases_head
  · exact Relation.TransGen.head'_iff.mp hcycle
  · exact hnext

/-- No variable that is reached comes back to itself. -/
def Acyclic (env : Environment) (fragments : List Fragment) : Prop :=
  ∀ name, env.Mentions fragments name → ¬Relation.TransGen env.Refers name name

end Environment

namespace Template

open Environment (Mentions Refers Acyclic)

variable {env inner : Environment} {name : String} {fragments rest : List Fragment}
  {text text' : String} {depth : Nat} {expanding : List String}

/-! ## Nested expansions -/

/-- The value of fragments, with a stack of the variables that are being expanded: a reference to
one of them stands for nothing. There is no value if expansions would have to be nested deeper than
allowed. -/
def expandWithin (env : Environment) (depth : Nat) (expanding : List String)
    (fragments : List Fragment) : Option String :=
  match fragments with
  | [] => some ""
  | .literal text :: rest => (expandWithin env depth expanding rest).map (text ++ ·)
  | .var name :: rest =>
    if name ∈ expanding then expandWithin env depth expanding rest
    else
      match env.find? name with
      | none => expandWithin env depth expanding rest
      | some value =>
        match depth with
        | 0 => none
        | depth + 1 => do
          let text ← expandWithin env depth (name :: expanding) value.fragments
          let more ← expandWithin env (depth + 1) expanding rest
          return text ++ more
termination_by (depth, fragments.length)

/-- The variables on the stack are those that have been unbound. -/
theorem expandWithin_eq (hinner : env.Unbinds expanding inner)
    (hdepth : inner.names.card ≤ depth) :
    expandWithin env depth expanding fragments = some (evalFragments inner fragments) := by
  induction inner, fragments using evalFragments.induct generalizing depth expanding with
  | case1 inner => rw [expandWithin, evalFragments]
  | case2 inner text rest ih =>
    rw [expandWithin, ih hinner hdepth, evalFragments_literal]
    rfl
  | case3 inner name rest ihvalue ih =>
    have hfind := hinner name
    rw [expandWithin, evalFragments_var, ih hinner hdepth]
    split
    · next hmem =>
      rw [Environment.expand_of_none (hfind.trans (if_pos hmem)), String.empty_append]
    · next hmem =>
      rw [if_neg hmem] at hfind
      cases hbound : env.find? name with
      | none =>
        rw [Environment.expand_of_none (hfind.trans hbound), String.empty_append]
      | some value =>
        have hvalue := hfind.trans hbound
        have hcard := Environment.card_names_without hvalue
        obtain ⟨depth, rfl⟩ : ∃ k, depth = k + 1 := ⟨depth - 1, by omega⟩
        dsimp only
        rw [ihvalue value hvalue (hinner.cons name) (by omega), ih hinner hdepth,
          Environment.expand_of_some hvalue]
        rfl

/-! ## Replacing without end -/

/-- Each reference is replaced by what comes of replacing the references in its template. -/
inductive Substitutes (env : Environment) : List Fragment → String → Prop where
  | nil : Substitutes env [] ""
  | literal (text : String) {rest more} (hrest : Substitutes env rest more) :
    Substitutes env (.literal text :: rest) (text ++ more)
  | unbound {name rest more} (hunbound : env.find? name = none)
    (hrest : Substitutes env rest more) : Substitutes env (.var name :: rest) more
  | bound {name value text rest more} (hbound : env.find? name = some value)
    (hvalue : Substitutes env value.fragments text) (hrest : Substitutes env rest more) :
    Substitutes env (.var name :: rest) (text ++ more)

/-- There is one way to replace references. -/
theorem Substitutes.unique (h : Substitutes env fragments text)
    (h' : Substitutes env fragments text') : text = text' := by
  induction h generalizing text' with
  | nil =>
    cases h'
    rfl
  | literal text _ ih =>
    cases h' with
    | literal _ hrest => rw [ih hrest]
  | unbound hunbound _ ih =>
    cases h' with
    | unbound _ hrest => exact ih hrest
    | bound hbound _ _ => cases hunbound.symm.trans hbound
  | bound hbound _ _ ihvalue ih =>
    cases h' with
    | unbound hunbound _ => cases hunbound.symm.trans hbound
    | bound hbound' hvalue hrest =>
      cases hbound.symm.trans hbound'
      rw [ihvalue hvalue, ih hrest]

/-- Where the replacing ends no variable that is reached comes back to itself. -/
theorem Substitutes.acyclic (h : Substitutes env fragments text) : Acyclic env fragments := by
  induction h with
  | nil =>
    rintro name ⟨first, href, -⟩ -
    cases href
  | literal text _ ih =>
    rintro name ⟨first, href, hreach⟩
    exact ih name ⟨first, by simpa using href, hreach⟩
  | unbound hunbound _ ih =>
    rintro name ⟨first, href, hreach⟩ hcycle
    obtain heq | hrest := List.mem_cons.mp href
    · cases heq
      obtain ⟨next, ⟨value, hbound, -⟩, -⟩ := Environment.exists_refers_of_cycle hreach hcycle
      cases hunbound.symm.trans hbound
    · exact ih name ⟨first, hrest, hreach⟩ hcycle
  | bound hbound _ _ ihvalue ih =>
    rintro name ⟨first, href, hreach⟩ hcycle
    obtain heq | hrest := List.mem_cons.mp href
    · cases heq
      obtain ⟨next, ⟨value, hvalue, hnext⟩, hreach⟩ :=
        Environment.exists_refers_of_cycle hreach hcycle
      cases hbound.symm.trans hvalue
      exact ihvalue name ⟨next, hnext, hreach⟩ hcycle
    · exact ih name ⟨first, hrest, hreach⟩ hcycle

/-- Where no variable that is reached comes back to itself, evaluation replaces references and
nothing else. The variables on the stack refer, directly or through others, to those that are met
from there on, so none of them is met again. -/
theorem substitutes_evalFragments (hinner : env.Unbinds expanding inner)
    (hstack : ∀ name, .var name ∈ fragments → ∀ outer ∈ expanding,
      Relation.TransGen env.Refers outer name)
    (hacyclic : Acyclic env fragments) :
    Substitutes env fragments (evalFragments inner fragments) := by
  induction inner, fragments using evalFragments.induct generalizing expanding with
  | case1 inner =>
    rw [evalFragments]
    exact .nil
  | case2 inner text rest ih =>
    rw [evalFragments_literal]
    refine .literal text (ih hinner (fun name href => hstack name (by simp [href])) ?_)
    exact fun name h => hacyclic name (h.mono (List.subset_cons_self _ _))
  | case3 inner name rest ihvalue ih =>
    have hrest := ih hinner (fun other href => hstack other (by simp [href]))
      fun other h => hacyclic other (h.mono (List.subset_cons_self _ _))
    have hmem : name ∉ expanding := fun hmem =>
      hacyclic name (.direct (by simp)) (hstack name (by simp) name hmem)
    have hfind := (hinner name).trans (if_neg hmem)
    rw [evalFragments_var]
    cases hbound : env.find? name with
    | none =>
      rw [Environment.expand_of_none (hfind.trans hbound), String.empty_append]
      exact .unbound hbound hrest
    | some value =>
      have hvalue := hfind.trans hbound
      rw [Environment.expand_of_some hvalue]
      refine .bound hbound (ihvalue value hvalue (hinner.cons name) ?_ ?_) hrest
      · intro other href outer houter
        have hstep : env.Refers name other := ⟨value, hbound, href⟩
        obtain rfl | houter := List.mem_cons.mp houter
        · exact .single hstep
        · exact (hstack name (by simp) outer houter).tail hstep
      · exact fun other h => hacyclic other (h.through (by simp) hbound)

/-- Evaluation comes to an end with no more expansions one within the other than there are bound
names, whatever the variables refer to. Replacing references without watching for those that come
back ends exactly if no variable that is reached comes back to itself, and what it leaves then is
the value. -/
theorem eval_spec (env : Environment) (t : Template) :
    expandWithin env env.names.card [] t.fragments = some (t.eval env) ∧
      ∀ text, Substitutes env t.fragments text ↔
        Acyclic env t.fragments ∧ text = t.eval env := by
  have hall := Environment.Unbinds.nil env
  refine ⟨expandWithin_eq hall le_rfl, fun text => ⟨fun h => ?_, ?_⟩⟩
  · exact ⟨h.acyclic, h.unique (substitutes_evalFragments hall (by simp) h.acyclic)⟩
  · rintro ⟨hacyclic, rfl⟩
    exact substitutes_evalFragments hall (by simp) hacyclic

/-- Two variables that refer to each other. -/
example : (empty.pushVar "a").eval [("a", (literal "1").pushVar "b"),
    ("b", (literal "2").pushVar "a")] = "12" := by
  cbv

end Template

end Rebuild
