import Rebuild.Proofs.Path

/-!
# What paths mean

A path is a way through directories: a name leads into a directory, `..` leaves the innermost one,
and the root is its own parent. An absolute path is followed from the root, a relative one from
wherever one is. Some directories hide a difference: `..` and `.` lead from the root to the same
place, and so do `../a` and `.` from a directory `a`. Two relative paths mean the same if no
directory that is deep enough, and whose names they do not use, tells them apart.

Canonical paths are the normal forms of this meaning. They begin with the steps upwards, which an
absolute path has none of, and go on with names; and there is one of them for each meaning.
-/

namespace Rebuild.Path

/-- Where a component leads from a directory, which is written with its innermost name first. -/
def enter (directory : List (List Char)) (component : List Char) : List (List Char) :=
  if component = [] ∨ component = ['.'] then directory
  else if component = ['.', '.'] then directory.tail
  else component :: directory

/-- Where a path leads from a directory. -/
def destination (directory : List (List Char)) (path : List Char) : List (List Char) :=
  (components path).foldl enter directory

/-- The directory is named by names that neither path uses. -/
def IsFresh (p q : List Char) (directory : List (List Char)) : Prop :=
  ∀ name ∈ directory, IsName name ∧ name ∉ components p ∧ name ∉ components q

/-- Both paths are absolute and lead from the root to the same place, or both are relative and do so
from every directory that is deep enough and has fresh names. -/
def SameMeaning (p q : List Char) : Prop :=
  isAbsolute p = isAbsolute q ∧
    if isAbsolute p then destination [] p = destination [] q
    else ∃ depth, ∀ directory, depth ≤ directory.length → IsFresh p q directory →
      destination directory p = destination directory q

/-- The form of a canonical path. No component is empty or `.`, except that the whole path may be
`.` and that a slash at the front has nothing before it, in `/` nothing behind it either; `..` comes
only first, and only in a relative path. -/
inductive IsNormal (path : List Char) : Prop where
  | start : path = ['.'] → IsNormal path
  | root : path = ['/'] → IsNormal path
  | relative (steps : Nat) (names : List (List Char)) : isAbsolute path = false →
      components path = List.replicate steps ['.', '.'] ++ names →
      (∀ name ∈ names, IsName name) → IsNormal path
  | absolute (names : List (List Char)) : isAbsolute path = true →
      components path = [] :: names → (∀ name ∈ names, IsName name) → IsNormal path

variable {absolute : Bool} {component : List Char} {stack directory : List (List Char)}

/-! ## Places seen from a directory -/

/-- Where a walk leads that stands at a place. -/
def arrive (directory stack : List (List Char)) : List (List Char) :=
  stack.foldr (fun component reached => enter reached component) directory

theorem IsName.enter (h : IsName component) (directory : List (List Char)) :
    enter directory component = component :: directory := by
  rw [Path.enter, if_neg (not_or.mpr ⟨h.ne_nil, h.ne_self⟩), if_neg h.ne_parent]

/-- Walking on and following the path keep step. -/
theorem Standing.enter_arrive (h : Standing absolute stack)
    (hroot : absolute = true → directory = []) :
    enter (arrive directory stack) component =
      arrive directory (Path.walk absolute stack component) := by
  unfold Path.walk
  split
  · next hself => rw [Path.enter, if_pos hself]
  split
  · next hparent =>
    subst hparent
    split
    · next top below =>
      split
      · rfl
      · next htop =>
        cases h with
        | above => exact absurd rfl htop
        | into name _ =>
          -- the directory that was entered last is left
          change Path.enter (Path.enter (arrive directory below) top) ['.', '.'] = _
          rw [name.enter]
          rfl
    · split
      · next habsolute =>
        rw [hroot habsolute]
        rfl
      · rfl
  · rfl

theorem foldl_enter {cs : List (List Char)} (h : Standing absolute stack)
    (hroot : absolute = true → directory = []) (hcs : ∀ c ∈ cs, '/' ∉ c) :
    cs.foldl enter (arrive directory stack) =
      arrive directory (cs.foldl (walk absolute) stack) := by
  induction cs generalizing stack with
  | nil => rfl
  | cons c cs ih =>
    obtain ⟨hc, hcs⟩ := List.forall_mem_cons.mp hcs
    rw [List.foldl_cons, h.enter_arrive hroot, ih (h.walk hc) hcs, List.foldl_cons]

/-- A path leads where its place is, seen from the directory. -/
theorem destination_eq {path : List Char} (hroot : isAbsolute path = true → directory = []) :
    destination directory path = arrive directory (place path).reverse := by
  have hcomponents : ∀ c ∈ components path, '/' ∉ c := fun c hc =>
    not_mem_of_mem_cutComponents (by simp) hc
  rw [place, List.reverse_reverse]
  exact foldl_enter .start hroot hcomponents

/-- A place is some steps upwards, none of them from the root, and then names. -/
theorem Standing.exists_names (h : Standing absolute stack) : ∃ names steps,
    stack = names ++ List.replicate steps ['.', '.'] ∧ (∀ name ∈ names, IsName name) ∧
      (absolute = true → steps = 0) := by
  induction h with
  | start => exact ⟨[], 0, rfl, by simp, fun _ => rfl⟩
  | above relative parents _ ih =>
    obtain ⟨names, steps, rfl, hnames, -⟩ := ih
    cases names with
    | nil => exact ⟨[], steps + 1, rfl, by simp, by simp [relative]⟩
    | cons name names =>
      exact absurd (parents name rfl) (hnames name List.mem_cons_self).ne_parent
  | @into component _ name _ ih =>
    obtain ⟨names, steps, rfl, hnames, habsolute⟩ := ih
    exact ⟨component :: names, steps, rfl, List.forall_mem_cons.mpr ⟨name, hnames⟩, habsolute⟩

theorem arrive_names {names : List (List Char)} (hnames : ∀ name ∈ names, IsName name)
    (steps : Nat) : arrive directory (names ++ List.replicate steps ['.', '.']) =
      names ++ directory.drop steps := by
  induction names with
  | nil =>
    induction steps with
    | zero => rfl
    | succ steps ih =>
      rw [List.nil_append] at ih ⊢
      change enter (arrive directory (List.replicate steps ['.', '.'])) ['.', '.'] = _
      rw [ih]
      exact List.tail_drop
  | cons name names ih =>
    obtain ⟨hname, hnames⟩ := List.forall_mem_cons.mp hnames
    rw [List.cons_append, List.cons_append, ← ih hnames]
    exact hname.enter _

theorem walk_subset : walk absolute stack component ⊆ component :: stack := by
  unfold walk
  split
  · exact List.subset_cons_self component stack
  split
  · split
    · split
      · exact List.Subset.refl _
      · exact fun c hc => List.mem_cons_of_mem _ (List.mem_cons_of_mem _ hc)
    · split
      · exact List.nil_subset _
      · exact List.Subset.refl _
  · exact List.Subset.refl _

/-- A place is made of components of the path. -/
theorem place_subset (path : List Char) : place path ⊆ components path := by
  rw [place, List.reverse_subset]
  refine List.foldlRecOn (motive := fun stack => stack ⊆ components path) _ _
    (List.nil_subset _) fun stack ih component hcomponent => ?_
  exact List.Subset.trans walk_subset (List.cons_subset.mpr ⟨hcomponent, ih⟩)

/-! ## Telling places apart -/

/-- From a directory that is deep enough and has none of the names, different places are
different. -/
theorem append_drop_injective {names names' : List (List Char)} {steps steps' : Nat}
    (hnames : ∀ name ∈ names, name ∉ directory) (hnames' : ∀ name ∈ names', name ∉ directory)
    (hsteps : steps ≤ directory.length) (hsteps' : steps' ≤ directory.length)
    (h : names ++ directory.drop steps = names' ++ directory.drop steps') :
    names = names' ∧ steps = steps' := by
  -- what one list of names has more than the other is part of the directory, and so is empty
  have hnil {more names rest : List (List Char)} {n : Nat} (hmore : names = rest ++ more)
      (hnames : ∀ name ∈ names, name ∉ directory) (hdrop : ∀ name ∈ more, name ∈ directory.drop n) :
      more = [] := by
    refine List.eq_nil_iff_forall_not_mem.mpr fun name hname => ?_
    exact hnames name (hmore ▸ List.mem_append_right rest hname)
      (List.mem_of_mem_drop (hdrop name hname))
  have hlength (heq : directory.drop steps = directory.drop steps') : steps = steps' := by
    have := congrArg List.length heq
    simp only [List.length_drop] at this
    omega
  obtain ⟨more, rfl, hdrop⟩ | ⟨more, rfl, hdrop⟩ := List.append_eq_append_iff.mp h
  · obtain rfl := hnil rfl hnames' fun name hname => hdrop ▸ List.mem_append_left _ hname
    exact ⟨(List.append_nil names).symm, hlength hdrop⟩
  · obtain rfl := hnil rfl hnames fun name hname => hdrop ▸ List.mem_append_left _ hname
    exact ⟨List.append_nil names', hlength hdrop.symm⟩

/-- There is a directory of any depth whose names the paths do not use. -/
theorem exists_isFresh (p q : List Char) (depth : Nat) :
    ∃ directory, directory.length = depth ∧ IsFresh p q directory := by
  -- a name that is longer than all components together
  generalize hbound : (components p ++ components q).flatten.length = bound
  have hlonger : List.replicate (bound + 1) 'a' ∉ components p ++ components q := by
    intro hmem
    have := (List.sublist_flatten_of_mem hmem).length_le
    simp only [List.length_replicate] at this
    omega
  have hname : IsName (List.replicate (bound + 1) 'a') :=
    ⟨by simp, by simp [List.replicate_succ], by simp [List.replicate_succ], by simp⟩
  refine ⟨List.replicate depth (List.replicate (bound + 1) 'a'), List.length_replicate, ?_⟩
  intro name hmem
  obtain rfl := List.eq_of_mem_replicate hmem
  rw [List.mem_append, not_or] at hlonger
  exact ⟨hname, hlonger⟩

/-- Paths have the same place if they are not told apart. -/
theorem place_eq_of_sameMeaning {p q : List Char} (h : SameMeaning p q) : place p = place q := by
  obtain ⟨habsolute, hsame⟩ := h
  obtain ⟨stack, hstanding, hp⟩ := exists_standing p
  obtain ⟨stack', hstanding', hq⟩ := exists_standing q
  obtain ⟨names, steps, hstack, hnames, hsteps⟩ := hstanding.exists_names
  obtain ⟨names', steps', hstack', hnames', hsteps'⟩ := hstanding'.exists_names
  have hdestination {directory : List (List Char)} (hroot : isAbsolute p = true → directory = [])
      (h : destination directory p = destination directory q) :
      names ++ directory.drop steps = names' ++ directory.drop steps' := by
    rwa [destination_eq hroot, destination_eq (habsolute ▸ hroot), hp, hq, List.reverse_reverse,
      List.reverse_reverse, hstack, hstack', arrive_names hnames, arrive_names hnames'] at h
  suffices h : names = names' ∧ steps = steps' by
    rw [hp, hq, hstack, hstack', h.1, h.2]
  split at hsame
  · next hp =>
    have := hdestination (fun _ => rfl) hsame
    simp only [List.drop_nil, List.append_nil] at this
    exact ⟨this, (hsteps hp).trans (hsteps' (habsolute ▸ hp)).symm⟩
  · next hrelative =>
    obtain ⟨depth, hsame⟩ := hsame
    obtain ⟨directory, hlength, hfresh⟩ := exists_isFresh p q (max depth (max steps steps'))
    have hmem {path : List Char} {stack names : List (List Char)} {steps : Nat}
        (hplace : place path = stack.reverse)
        (hstack : stack = names ++ List.replicate steps ['.', '.']) :
        ∀ name ∈ names, name ∈ components path := fun name hname =>
      place_subset path (by simp [hplace, hstack, hname])
    have hunused : ∀ name ∈ names, name ∉ directory := fun name hname hin =>
      (hfresh name hin).2.1 (hmem hp hstack name hname)
    have hunused' : ∀ name ∈ names', name ∉ directory := fun name hname hin =>
      (hfresh name hin).2.2 (hmem hq hstack' name hname)
    refine append_drop_injective hunused hunused' (by omega) (by omega) ?_
    exact hdestination (fun h => absurd h hrelative) (hsame directory (by omega) hfresh)

/-- Paths that have the same place lead to the same place from everywhere. -/
theorem sameMeaning_of_place_eq {p q : List Char} (habsolute : isAbsolute p = isAbsolute q)
    (hplace : place p = place q) : SameMeaning p q := by
  have hsame {directory : List (List Char)} (hroot : isAbsolute p = true → directory = []) :
      destination directory p = destination directory q := by
    rw [destination_eq hroot, destination_eq (habsolute ▸ hroot), hplace]
  refine ⟨habsolute, ?_⟩
  split
  · exact hsame fun _ => rfl
  · next hrelative => exact ⟨0, fun directory _ _ => hsame fun h => absurd h hrelative⟩

/-! ## Canonical spellings -/

theorem canonicalChars_eq_iff {p q : List Char} : canonicalChars p = canonicalChars q ↔
    isAbsolute p = isAbsolute q ∧ place p = place q := by
  constructor
  · intro h
    obtain ⟨hp, hp'⟩ := place_canonicalChars p
    obtain ⟨hq, hq'⟩ := place_canonicalChars q
    exact ⟨by rw [← hp, ← hq, h], by rw [← hp', ← hq', h]⟩
  · rintro ⟨habsolute, hplace⟩
    rw [canonicalChars, canonicalChars, habsolute, hplace]

theorem isNormal_canonicalChars (path : List Char) : IsNormal (canonicalChars path) := by
  obtain ⟨stack, hstanding, hplace⟩ := exists_standing path
  obtain ⟨names, steps, hstack, hnames, hsteps⟩ := hstanding.exists_names
  obtain ⟨habsolute, -⟩ := hstanding.spell
  have hcanonical : canonicalChars path = spell (isAbsolute path) stack.reverse := by
    rw [canonicalChars, hplace]
  rw [← hcanonical] at habsolute
  have hreverse : ∀ name ∈ names.reverse, IsName name := fun name hname =>
    hnames name (List.mem_reverse.mp hname)
  by_cases hnil : stack.reverse = []
  · cases hpath : isAbsolute path with
    | true => exact .root (by rw [hcanonical, hnil, hpath]; rfl)
    | false => exact .start (by rw [hcanonical, hnil, hpath]; rfl)
  have hjoined : components (['/'].intercalate stack.reverse) = stack.reverse :=
    components_intercalate hnil fun c hc =>
      hstanding.no_separator c (List.mem_reverse.mp hc)
  cases hpath : isAbsolute path with
  | true =>
    refine .absolute names.reverse (habsolute.trans hpath) ?_ hreverse
    rw [hsteps hpath, List.replicate_zero, List.append_nil] at hstack
    rw [hcanonical, hpath]
    change [] :: components (['/'].intercalate stack.reverse) = _
    rw [hjoined, hstack]
  | false =>
    refine .relative steps names.reverse (habsolute.trans hpath) ?_ hreverse
    have hne : (['/'].intercalate stack.reverse).isEmpty = false := by
      obtain ⟨c, place, hcons⟩ := List.exists_cons_of_ne_nil hnil
      obtain ⟨more, hmore⟩ := exists_intercalate_eq c place
      have hc := hstanding.ne_nil c (List.mem_reverse.mp (hcons ▸ List.mem_cons_self))
      simp [hcons, hmore, hc]
    rw [hcanonical, hpath, spell, hne]
    simp only [Bool.false_eq_true, if_false]
    rw [hjoined, hstack, List.reverse_append, List.reverse_replicate]

/-- Canonical paths are unique normal forms: spelling a canonical path canonically changes nothing,
every canonical path has the form of one, and two paths have the same canonical spelling exactly if
they mean the same. -/
theorem canonical_unique_normal_form (p q : String) :
    canonical (canonical p) = canonical p ∧ IsNormal (canonical p).toList ∧
      (canonical p = canonical q ↔ SameMeaning p.toList q.toList) := by
  refine ⟨canonical_canonical p, ?_, ?_⟩
  · rw [canonical, String.toList_ofList]
    exact isNormal_canonicalChars p.toList
  · have hchars : canonical p = canonical q ↔
        canonicalChars p.toList = canonicalChars q.toList := String.ofList_inj
    rw [hchars, canonicalChars_eq_iff]
    exact ⟨fun h => sameMeaning_of_place_eq h.1 h.2, fun h => ⟨h.1, place_eq_of_sameMeaning h⟩⟩

end Rebuild.Path
