import Rebuild.Graph

/-!
# Expanding variables

A variable is unbound while it is expanded. To unbind a variable takes out of a value what
references to the variable stand for, and leaves the rest as it is; so a value stays the same
exactly if no such reference puts anything in its place. The value of a variable of an edge is that
of its template, and other than in the expansion of a reference, the variable is still bound in
there.
-/

namespace Rebuild

namespace Environment

variable {env : Environment} {name other : String}

theorem find?_without (env : Environment) (name other : String) :
    (env.without name).find? other = if other = name then none else env.find? other := by
  unfold find? without
  induction env with
  | nil => simp [Bindings.findIn]
  | cons entry env ih =>
    by_cases hentry : entry.1 = name
    · rw [List.filter_cons_of_neg (by simp [hentry]), ih, Bindings.findIn, hentry]
      split
      · rfl
      · next hne => rw [if_neg (Ne.symm hne)]
    · rw [List.filter_cons_of_pos (by simp [hentry]), Bindings.findIn, Bindings.findIn, ih]
      by_cases hother : entry.1 = other
      · rw [if_pos hother, if_pos hother, if_neg (hother ▸ hentry)]
      · rw [if_neg hother, if_neg hother]

theorem without_comm (env : Environment) (name other : String) :
    (env.without name).without other = (env.without other).without name := by
  simp only [without, List.filter_filter, Bool.and_comm]

/-- What a reference to a variable stands for. -/
def expand (env : Environment) (name : String) : String :=
  match env.find? name with
  | none => ""
  | some value => value.eval (env.without name)

theorem expand_of_none (h : env.find? name = none) : env.expand name = "" := by
  rw [expand, h]

theorem expand_of_some {value : Template} (h : env.find? name = some value) :
    env.expand name = value.eval (env.without name) := by
  rw [expand, h]

end Environment

namespace Template

variable {env : Environment} {name other : String} {fragments : List Fragment} {value : Template}

theorem evalFragments_literal (env : Environment) (text : String) (fragments : List Fragment) :
    evalFragments env (.literal text :: fragments) = text ++ evalFragments env fragments := by
  rw [evalFragments]

theorem evalFragments_var (env : Environment) (name : String) (fragments : List Fragment) :
    evalFragments env (.var name :: fragments) =
      env.expand name ++ evalFragments env fragments := by
  rw [evalFragments, Environment.expand]
  cases env.find? name <;> rfl

/-- A reference to a variable is evaluated to what it stands for. -/
theorem eval_pushVar (env : Environment) (name : String) :
    (empty.pushVar name).eval env = env.expand name := by
  have hreference : (empty.pushVar name).fragments = [.var name] := rfl
  rw [eval, hreference, evalFragments_var, evalFragments, String.append_empty]

/-- Text gets its place in a value because a reference to a variable is expanded, in the fragments
themselves or in what another variable in them stands for. -/
inductive Draws (name : String) : Environment → List Fragment → Prop
  | here {env : Environment} {fragments : List Fragment} (reference : .var name ∈ fragments)
    (text : env.expand name ≠ "") : Draws name env fragments
  | within {env : Environment} {fragments : List Fragment} {other : String} {value : Template}
    (reference : .var other ∈ fragments) (bound : env.find? other = some value)
    (apart : other ≠ name) (draws : Draws name (env.without other) value.fragments) :
    Draws name env fragments

theorem draws_cons {fragment : Fragment} : Draws name env (fragment :: fragments) ↔
    Draws name env [fragment] ∨ Draws name env fragments := by
  have hmem : ∀ other, .var other ∈ fragment :: fragments ↔
      .var other ∈ [fragment] ∨ .var other ∈ fragments := fun other => by simp
  constructor
  · rintro (⟨href, htext⟩ | ⟨href, hbound, hne, h⟩)
    · exact ((hmem _).mp href).imp (.here · htext) (.here · htext)
    · exact ((hmem _).mp href).imp (.within · hbound hne h) (.within · hbound hne h)
  · rintro ((⟨href, htext⟩ | ⟨href, hbound, hne, h⟩) | (⟨href, htext⟩ | ⟨href, hbound, hne, h⟩))
    · exact .here ((hmem _).mpr (.inl href)) htext
    · exact .within ((hmem _).mpr (.inl href)) hbound hne h
    · exact .here ((hmem _).mpr (.inr href)) htext
    · exact .within ((hmem _).mpr (.inr href)) hbound hne h

theorem not_draws_nil : ¬Draws name env [] := by
  rintro (⟨href, -⟩ | ⟨href, -, -, -⟩) <;> cases href

theorem not_draws_literal {text : String} : ¬Draws name env [.literal text] := by
  rintro (⟨href, -⟩ | ⟨href, -, -, -⟩) <;> simp at href

theorem draws_self : Draws name env [.var name] ↔ env.expand name ≠ "" := by
  refine ⟨?_, .here (by simp)⟩
  rintro (⟨-, htext⟩ | ⟨href, -, hne, -⟩)
  · exact htext
  · simp [hne] at href

theorem draws_other (hne : other ≠ name) : Draws name env [.var other] ↔
    ∃ value, env.find? other = some value ∧ Draws name (env.without other) value.fragments := by
  refine ⟨?_, fun ⟨value, hbound, h⟩ => .within (by simp) hbound hne h⟩
  rintro (⟨href, -⟩ | ⟨href, hbound, -, h⟩)
  · simp [Ne.symm hne] at href
  · obtain rfl : _ = other := by simpa using href
    exact ⟨_, hbound, h⟩

/-- What is left of a text, which is all of it unless something is drawn in. -/
structure Leaves (draws : Prop) (text left : String) : Prop where
  sublist : left.toList.Sublist text.toList
  eq_iff : left = text ↔ ¬draws

theorem Leaves.append {draws draws' : Prop} {text text' left left' : String}
    (h : Leaves draws text left) (h' : Leaves draws' text' left') :
    Leaves (draws ∨ draws') (text ++ text') (left ++ left') where
  sublist := by
    rw [String.toList_append, String.toList_append]
    exact h.sublist.append h'.sublist
  eq_iff := by
    rw [not_or, ← h.eq_iff, ← h'.eq_iff]
    refine ⟨fun heq => ?_, fun ⟨heq, heq'⟩ => by rw [heq, heq']⟩
    have hlength := congrArg (List.length ∘ String.toList) heq
    have hle := h.sublist.length_le
    have hle' := h'.sublist.length_le
    simp only [Function.comp, String.toList_append, List.length_append] at hlength
    exact ⟨String.toList_inj.mp (h.sublist.eq_of_length (by omega)),
      String.toList_inj.mp (h'.sublist.eq_of_length (by omega))⟩

theorem Leaves.same {draws : Prop} (text : String) (h : ¬draws) : Leaves draws text text :=
  ⟨List.Sublist.refl _, fun _ => h, fun _ => rfl⟩

/-- To unbind a variable takes out of a value what references to the variable stand for. -/
theorem evalFragments_without (name : String) (env : Environment) (fragments : List Fragment) :
    Leaves (Draws name env fragments) (evalFragments env fragments)
      (evalFragments (env.without name) fragments) := by
  induction env, fragments using evalFragments.induct with
  | case1 env =>
    rw [evalFragments, evalFragments]
    exact .same _ not_draws_nil
  | case2 env text rest ih =>
    rw [evalFragments_literal, evalFragments_literal, draws_cons]
    exact (Leaves.same text not_draws_literal).append ih
  | case3 env other rest ihvalue ih =>
    rw [evalFragments_var, evalFragments_var, draws_cons]
    refine Leaves.append ?_ ih
    have hfind := env.find?_without name other
    by_cases hname : other = name
    · subst hname
      rw [Environment.expand_of_none (hfind.trans (if_pos rfl)), draws_self]
      exact ⟨List.nil_sublist _, by rw [Decidable.not_not, eq_comm]⟩
    · rw [if_neg hname] at hfind
      rw [draws_other hname]
      cases hbound : env.find? other with
      | none =>
        rw [Environment.expand_of_none hbound, Environment.expand_of_none (hfind.trans hbound)]
        exact .same _ (by simp)
      | some value =>
        rw [Environment.expand_of_some hbound, Environment.expand_of_some (hfind.trans hbound),
          Environment.without_comm]
        obtain ⟨hsublist, hsame⟩ := ihvalue value hbound
        exact ⟨hsublist, hsame.trans (not_congr (by simp))⟩

end Template

/-- A variable of an edge has the value that a reference to it stands for, and beyond that what
references to the variable draw in when its own template is expanded. So the two are the same
exactly if there is nothing that such references draw in: where the template does not come back to
the variable, or only to nothing. -/
theorem Graph.edgeVar_eq_eval_iff (g : Graph) (id : EdgeId) (name : String) :
    ((Template.empty.pushVar name).eval (g.environment id)).toList.Sublist
        (g.edgeVar id name).toList ∧
      (g.edgeVar id name = (Template.empty.pushVar name).eval (g.environment id) ↔
        ∀ value, (g.environment id).find? name = some value →
          ¬Template.Draws name (g.environment id) value.fragments) := by
  rw [Template.eval_pushVar]
  cases hbound : (g.environment id).find? name with
  | none =>
    have hvar : g.edgeVar id name = "" := by rw [edgeVar, hbound]
    rw [hvar, Environment.expand_of_none hbound]
    exact ⟨List.Sublist.refl _, by simp⟩
  | some value =>
    have hvar : g.edgeVar id name = value.eval (g.environment id) := by rw [edgeVar, hbound]
    obtain ⟨hsublist, hsame⟩ :=
      Template.evalFragments_without name (g.environment id) value.fragments
    rw [hvar, Environment.expand_of_some hbound]
    exact ⟨hsublist, eq_comm.trans (hsame.trans (by simp))⟩

end Rebuild
