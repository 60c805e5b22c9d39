import Mathlib.Data.List.Basic
import Rebuild.Path

/-!
# Places of paths

A walk through the components of a path only ever stands at places of one kind: steps upwards first,
none of them from an absolute root, then names. Walking to such a place by its own spelling leads
there again, so a canonical path is its own canonical spelling.
-/

namespace Rebuild.Path

/-- A component that leads into a directory. -/
structure IsName (component : List Char) : Prop where
  ne_nil : component ≠ []
  ne_self : component ≠ ['.']
  ne_parent : component ≠ ['.', '.']
  no_separator : '/' ∉ component

/-- Where a walk can stand, the innermost component first. -/
inductive Standing (absolute : Bool) : List (List Char) → Prop
  | start : Standing absolute []
  | above {stack : List (List Char)} (relative : absolute = false)
      (parents : ∀ top ∈ stack.head?, top = ['.', '.']) (h : Standing absolute stack) :
      Standing absolute (['.', '.'] :: stack)
  | into {component : List Char} {stack : List (List Char)} (name : IsName component)
      (h : Standing absolute stack) : Standing absolute (component :: stack)

variable {absolute : Bool} {component : List Char} {stack : List (List Char)}

namespace Standing

theorem tail {top : List Char} (h : Standing absolute (top :: stack)) :
    Standing absolute stack := by
  cases h with
  | above _ _ h => exact h
  | into _ h => exact h

theorem ne_nil (h : Standing absolute stack) : ∀ c ∈ stack, c ≠ [] := by
  induction h with
  | start => simp
  | above _ _ _ ih => simpa using ih
  | into name _ ih => simpa using ⟨name.ne_nil, ih⟩

theorem no_separator (h : Standing absolute stack) : ∀ c ∈ stack, '/' ∉ c := by
  induction h with
  | start => simp
  | above _ _ _ ih => simpa using ih
  | into name _ ih => simpa using ⟨name.no_separator, ih⟩

/-- A walk goes on standing where it can. -/
theorem walk (h : Standing absolute stack) (hcomponent : '/' ∉ component) :
    Standing absolute (walk absolute stack component) := by
  unfold Path.walk
  split
  · exact h
  next hself =>
  split
  · next hparent =>
    subst hparent
    split
    · next top below =>
      split
      · next htop =>
        subst htop
        cases h with
        | above relative parents h => exact .above relative (by simp) (.above relative parents h)
        | into name _ => exact absurd rfl name.ne_parent
      · exact h.tail
    · split
      · exact .start
      · next hrelative => exact .above (Bool.not_eq_true _ ▸ hrelative) (by simp) .start
  · next hparent =>
    rw [not_or] at hself
    exact .into ⟨hself.1, hself.2, hparent, hcomponent⟩ h

/-- The last step to a place adds its innermost component. -/
theorem walk_eq (h : Standing absolute (component :: stack)) :
    Path.walk absolute stack component = component :: stack := by
  cases h with
  | above relative parents _ =>
    subst relative
    cases stack with
    | nil => rfl
    | cons top below =>
      obtain rfl := parents top rfl
      rfl
  | into name _ =>
    rw [Path.walk.eq_def, if_neg (not_or.mpr ⟨name.ne_nil, name.ne_self⟩), if_neg name.ne_parent]

/-- A place is reached through its own components. -/
theorem foldl_walk (h : Standing absolute stack) :
    stack.reverse.foldl (Path.walk absolute) [] = stack := by
  induction stack with
  | nil => rfl
  | cons component stack ih =>
    rw [List.reverse_cons, List.foldl_append, ih h.tail]
    exact h.walk_eq

end Standing

/-! ## Components -/

theorem cutComponents_append {a : List Char} (h : '/' ∉ a) (component rest : List Char) :
    cutComponents component (a ++ rest) = cutComponents (component ++ a) rest := by
  induction a generalizing component with
  | nil => rw [List.nil_append, List.append_nil]
  | cons c a ih =>
    rw [List.mem_cons, not_or] at h
    rw [List.cons_append, cutComponents, ih h.2, List.append_assoc, List.singleton_append]
    exact fun hc => h.1 hc.symm

/-- Components hold no separator. -/
theorem not_mem_of_mem_cutComponents {text c : List Char} (h : '/' ∉ component)
    (hc : c ∈ cutComponents component text) : '/' ∉ c := by
  induction text generalizing component with
  | nil => rwa [List.mem_singleton.mp hc]
  | cons d text ih =>
    by_cases hd : d = '/'
    · subst hd
      rcases List.mem_cons.mp hc with rfl | hc
      · exact h
      · exact ih (by simp) hc
    · rw [cutComponents.eq_3 _ _ _ hd] at hc
      exact ih (by simp [h, Ne.symm hd]) hc

/-- Components that were joined are told apart again. -/
theorem components_intercalate {place : List (List Char)} (hne : place ≠ [])
    (h : ∀ c ∈ place, '/' ∉ c) : components (['/'].intercalate place) = place := by
  induction place with
  | nil => exact absurd rfl hne
  | cons c place ih =>
    obtain ⟨hc, hrest⟩ := List.forall_mem_cons.mp h
    cases place with
    | nil =>
      have hcut := cutComponents_append hc [] []
      rw [List.append_nil] at hcut
      simpa [components, List.intercalate, cutComponents] using hcut
    | cons d place =>
      have hjoin : ['/'].intercalate (c :: d :: place) =
          c ++ '/' :: ['/'].intercalate (d :: place) := by
        simp [List.intercalate]
      rw [hjoin, components, cutComponents_append hc]
      exact congrArg (c :: ·) (ih (by simp) hrest)

/-! ## Canonical paths -/

/-- Every path leads to a place where a walk can stand. -/
theorem exists_standing (path : List Char) :
    ∃ stack, Standing (isAbsolute path) stack ∧ place path = stack.reverse := by
  refine ⟨_, ?_, rfl⟩
  have hcomponents : ∀ c ∈ components path, '/' ∉ c := fun c hc =>
    not_mem_of_mem_cutComponents (by simp) hc
  exact List.foldlRecOn _ _ .start fun stack h c hc => h.walk (hcomponents c hc)

theorem foldl_components (h : Standing absolute stack) :
    (components (['/'].intercalate stack.reverse)).foldl (Path.walk absolute) [] = stack := by
  by_cases hne : stack.reverse = []
  · obtain rfl := List.reverse_eq_nil_iff.mp hne
    rfl
  · have hseparator : ∀ c ∈ stack.reverse, '/' ∉ c := fun c hc =>
      h.no_separator c (List.mem_reverse.mp hc)
    rw [components_intercalate hne hseparator, h.foldl_walk]

/-- The spelling of a place begins with its outermost component. -/
theorem exists_intercalate_eq (c : List Char) (place : List (List Char)) :
    ∃ more, ['/'].intercalate (c :: place) = c ++ more := by
  cases place with
  | nil => exact ⟨[], by simp [List.intercalate]⟩
  | cons d place => exact ⟨'/' :: ['/'].intercalate (d :: place), by simp [List.intercalate]⟩

/-- The spelling of a place leads there. -/
theorem Standing.spell (h : Standing absolute stack) :
    isAbsolute (spell absolute stack.reverse) = absolute ∧
      place (spell absolute stack.reverse) = stack.reverse := by
  have hplace := congrArg List.reverse (foldl_components h)
  cases absolute with
  | true => exact ⟨rfl, hplace⟩
  | false =>
    cases hstack : stack.reverse with
    | nil => exact ⟨rfl, rfl⟩
    | cons c place =>
      rw [hstack] at hplace
      obtain ⟨more, hmore⟩ := exists_intercalate_eq c place
      have hc : c ∈ stack := List.mem_reverse.mp (hstack ▸ List.mem_cons_self)
      obtain ⟨d, c, rfl⟩ := List.exists_cons_of_ne_nil (h.ne_nil c hc)
      have hseparator := h.no_separator _ hc
      have hrelative : isAbsolute (['/'].intercalate ((d :: c) :: place)) = false := by
        have hd : d ≠ '/' := fun hd => hseparator (hd ▸ List.mem_cons_self)
        simp [isAbsolute, hmore, hd]
      have hspell :
          Path.spell false ((d :: c) :: place) = ['/'].intercalate ((d :: c) :: place) := by
        simp [Path.spell, hmore]
      rw [hspell]
      refine ⟨hrelative, ?_⟩
      rwa [Path.place, hrelative]

/-- The canonical spelling of a path leads to the same place. -/
theorem place_canonicalChars (path : List Char) :
    isAbsolute (canonicalChars path) = isAbsolute path ∧
      place (canonicalChars path) = place path := by
  obtain ⟨stack, hstanding, hplace⟩ := exists_standing path
  rw [canonicalChars, hplace]
  exact hstanding.spell

theorem canonicalChars_canonicalChars (path : List Char) :
    canonicalChars (canonicalChars path) = canonicalChars path := by
  obtain ⟨habsolute, hplace⟩ := place_canonicalChars path
  rw [canonicalChars.eq_def (canonicalChars path), habsolute, hplace]
  rfl

/-- A canonical path is its own canonical spelling. -/
theorem canonical_canonical (path : String) : canonical (canonical path) = canonical path := by
  rw [canonical, canonical, String.toList_ofList, canonicalChars_canonicalChars]

/-- The empty text is no canonical path. -/
theorem ne_empty_of_canonical {path : String} (h : canonical path = path) : path ≠ "" := by
  rintro rfl
  exact absurd h (by decide)

end Rebuild.Path
