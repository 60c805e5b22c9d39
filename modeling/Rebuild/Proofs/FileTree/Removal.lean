import Rebuild.FileTree

/-!
# Trees from which something was taken away

Taking away files and links leaves the directories, so a path that still leads somewhere leads where
it did before: either a link that it followed is gone, and then nothing is found, or the walk along
it is the same. This is what `Fewer.lookAt` says, and `Fewer.walk_of_links` tells when the walk is
the same.
-/

namespace Rebuild.FileTree

/-- What became of what stood at a place: nothing changed, or only the time of a directory did, or
it was taken away, which does not happen to directories. -/
inductive Kept : Option Entry → Option Entry → Prop where
  | same (found? : Option Entry) : Kept found? found?
  | later (time time' : Timestamp) (mode : Nat) :
      Kept (some (.directory time mode)) (some (.directory time' mode))
  | gone {entry : Entry} : entry.isDirectory = false → Kept (some entry) none

/-- The second tree is the first one without some of its files and links. -/
def Fewer (t t' : FileTree) : Prop := ∀ place, Kept (t.find? place) (t'.find? place)

/-- The links that a walk follows. -/
def linksOn (t : FileTree) (links : Nat) (toEnd : Bool) (here : Place) (names : List String) :
    List Place :=
  match names with
  | [] => []
  | name :: rest =>
    match t.enter here name with
    | .error _ => []
    | .ok place =>
      match t.find? place with
      | some (.link target) =>
        if rest.isEmpty && !toEnd then []
        else match links with
          | 0 => []
          | links + 1 =>
            place :: t.linksOn links toEnd (startOf place.dropLast target) (namesOf target ++ rest)
      | _ => t.linksOn links toEnd place rest
termination_by (links, names.length)

variable {t t' t'' : FileTree} {place here : Place} {name path : String} {entry : Entry}
  {fault : TreeFault}

theorem Fewer.refl (t : FileTree) : Fewer t t := fun _ => .same _

theorem Kept.trans {a b c : Option Entry} (h : Kept a b) (h' : Kept b c) : Kept a c := by
  cases h with
  | same => exact h'
  | later time time' mode =>
    cases h' with
    | same => exact .later time time' mode
    | later => exact .later ..
    | gone hdir => cases hdir
  | gone hdir =>
    cases h'
    exact .gone hdir

theorem Fewer.trans (h : Fewer t t') (h' : Fewer t' t'') : Fewer t t'' :=
  fun place => (h place).trans (h' place)

theorem Kept.link {a b : Option Entry} {target : String} (h : Kept a b)
    (ha : a = some (.link target)) : b = some (.link target) ∨ b = none := by
  cases h with
  | same => exact .inl ha
  | later => cases ha
  | gone => exact .inr rfl

theorem Kept.link_of {a b : Option Entry} {target : String} (h : Kept a b)
    (hb : b = some (.link target)) : a = some (.link target) := by
  cases h with
  | same => exact hb
  | later | gone => cases hb

theorem Fewer.find?_none (h : Fewer t t') (hnone : t.find? place = none) :
    t'.find? place = none := by
  have hkept := h place
  rw [hnone] at hkept
  generalize t'.find? place = after at hkept ⊢
  cases hkept
  rfl

/-! ## Walking -/

theorem Fewer.enter_of_ok (h : Fewer t t') (henter : t.enter here name = .ok place) :
    t'.enter here name = .ok place := by
  have hkept := h here
  unfold enter at henter ⊢
  generalize t.find? here = before at henter hkept
  generalize t'.find? here = after at hkept ⊢
  cases hkept with
  | same => exact henter
  | later => exact henter
  | @gone entry hdir =>
    cases entry with
    | directory => cases hdir
    | _ => cases henter

/-- Entering a name fails as before, unless what stood there was taken away. -/
theorem Fewer.enter_of_error (h : Fewer t t') (henter : t.enter here name = .error fault) :
    t'.enter here name = .error fault ∨ t'.enter here name = .error .missing := by
  have hkept := h here
  unfold enter at henter ⊢
  generalize t.find? here = before at henter hkept
  generalize t'.find? here = after at hkept ⊢
  cases hkept with
  | same => exact .inl henter
  | later => exact .inl henter
  | gone => exact .inr rfl

section Steps

variable {links : Nat} {toEnd : Bool} {rest : List String} {target : String}

theorem walk_of_error (henter : t.enter here name = .error fault) :
    t.walk links toEnd here (name :: rest) = .error fault := by
  rw [FileTree.walk, henter]

/-- A link at the end that is not followed. -/
theorem walk_of_end (henter : t.enter here name = .ok place)
    (hlink : t.find? place = some (.link target)) (hend : (rest.isEmpty && !toEnd) = true) :
    t.walk links toEnd here (name :: rest) = .ok place := by
  rw [FileTree.walk, henter]
  simp only [hlink, if_pos hend]

theorem walk_of_loop (henter : t.enter here name = .ok place)
    (hlink : t.find? place = some (.link target)) (hend : ¬(rest.isEmpty && !toEnd) = true) :
    t.walk 0 toEnd here (name :: rest) = .error .tooManyLinks := by
  rw [FileTree.walk, henter]
  simp only [hlink, if_neg hend]

theorem walk_of_link (henter : t.enter here name = .ok place)
    (hlink : t.find? place = some (.link target)) (hend : ¬(rest.isEmpty && !toEnd) = true) :
    t.walk (links + 1) toEnd here (name :: rest) =
      t.walk links toEnd (startOf place.dropLast target) (namesOf target ++ rest) := by
  rw [FileTree.walk, henter]
  simp only [hlink, if_neg hend]

theorem walk_of_not_link (henter : t.enter here name = .ok place)
    (hlink : ∀ target, t.find? place ≠ some (.link target)) :
    t.walk links toEnd here (name :: rest) = t.walk links toEnd place rest := by
  rw [FileTree.walk, henter]
  simp only

theorem linksOn_of_link (henter : t.enter here name = .ok place)
    (hlink : t.find? place = some (.link target)) (hend : ¬(rest.isEmpty && !toEnd) = true) :
    t.linksOn (links + 1) toEnd here (name :: rest) =
      place :: t.linksOn links toEnd (startOf place.dropLast target) (namesOf target ++ rest) := by
  rw [linksOn, henter]
  simp only [hlink, if_neg hend]

theorem linksOn_of_not_link (henter : t.enter here name = .ok place)
    (hlink : ∀ target, t.find? place ≠ some (.link target)) :
    t.linksOn links toEnd here (name :: rest) = t.linksOn links toEnd place rest := by
  rw [linksOn, henter]
  simp only

/-- Where nothing stands, a walk ends. -/
theorem walk_of_none (h : t.find? place = none) (names : List String) :
    t.walk links toEnd place names = .error .missing ∨
      ∃ place', t.walk links toEnd place names = .ok place' ∧ t.find? place' = none := by
  cases names with
  | nil => exact .inr ⟨place, by rw [FileTree.walk], h⟩
  | cons name rest => exact .inl (walk_of_error (by rw [enter, h]))

end Steps

/-- What is no link does not become one. -/
theorem Fewer.walk_on {links : Nat} {toEnd : Bool} {rest : List String} (h : Fewer t t')
    (henter : t.enter here name = .ok place)
    (hlink : ∀ target, t.find? place ≠ some (.link target)) :
    t'.walk links toEnd here (name :: rest) = t'.walk links toEnd place rest :=
  FileTree.walk_of_not_link (h.enter_of_ok henter) fun target hafter =>
    hlink target ((h place).link_of hafter)

/-- Links that are followed are links. -/
theorem find?_of_mem_linksOn {links : Nat} {toEnd : Bool} {link : Place} {names : List String}
    (h : link ∈ t.linksOn links toEnd here names) :
    ∃ target, t.find? link = some (.link target) := by
  fun_induction FileTree.linksOn t links toEnd here names with
  | case1 | case2 | case3 | case4 => cases h
  | case5 here name rest next henter target hlink hend links ih =>
    rcases List.mem_cons.mp h with rfl | h
    · exact ⟨target, hlink⟩
    · exact ih h
  | case6 links here name rest next henter hlink ih => exact ih h

/-- A walk in a tree with fewer files leads where it did, or nothing is found. -/
theorem Fewer.walk (h : Fewer t t') (links : Nat) (toEnd : Bool) (here : Place)
    (names : List String) :
    t'.walk links toEnd here names = t.walk links toEnd here names ∨
    t'.walk links toEnd here names = .error .missing ∨
    ∃ place, t'.walk links toEnd here names = .ok place ∧ t'.find? place = none := by
  -- a link that is gone ends the walk
  have hgone {links : Nat} {here next : Place} {name : String} (rest : List String)
      (henter : t.enter here name = .ok next) (hnone : t'.find? next = none) :
      t'.walk links toEnd here (name :: rest) = .error .missing ∨
        ∃ place, t'.walk links toEnd here (name :: rest) = .ok place ∧ t'.find? place = none := by
    rw [walk_of_not_link (h.enter_of_ok henter) (by simp [hnone])]
    exact walk_of_none hnone rest
  induction links, here, names using FileTree.walk.induct t toEnd with
  | case1 links here => exact .inl (by rw [FileTree.walk, FileTree.walk])
  | case2 links here name rest fault henter =>
    rcases h.enter_of_error henter with henter' | henter'
    · exact .inl (by rw [walk_of_error henter, walk_of_error henter'])
    · exact .inr (.inl (walk_of_error henter'))
  | case3 links here name rest next henter link hlink hend =>
    rcases (h next).link hlink with hlink' | hnone
    · rw [walk_of_end henter hlink hend, walk_of_end (h.enter_of_ok henter) hlink' hend]
      exact .inl rfl
    · exact .inr (hgone rest henter hnone)
  | case4 here name rest next henter link hlink hend =>
    rcases (h next).link hlink with hlink' | hnone
    · rw [walk_of_loop henter hlink hend, walk_of_loop (h.enter_of_ok henter) hlink' hend]
      exact .inl rfl
    · exact .inr (hgone rest henter hnone)
  | case5 here name rest next henter link hlink hend links ih =>
    rcases (h next).link hlink with hlink' | hnone
    · rw [walk_of_link henter hlink hend, walk_of_link (h.enter_of_ok henter) hlink' hend]
      exact ih
    · exact .inr (hgone rest henter hnone)
  | case6 links here name rest next henter hlink ih =>
    rw [walk_of_not_link henter hlink, h.walk_on henter hlink]
    exact ih

/-- As long as none of the links that it follows is taken away, a walk stays the same. -/
theorem Fewer.walk_of_links (h : Fewer t t') {links : Nat} {toEnd : Bool} {here place : Place}
    {names : List String} (hwalk : t.walk links toEnd here names = .ok place)
    (hlinks : ∀ link ∈ t.linksOn links toEnd here names, t'.find? link ≠ none) :
    t'.walk links toEnd here names = .ok place := by
  induction links, here, names using FileTree.walk.induct t toEnd with
  | case1 links here => rwa [FileTree.walk] at hwalk ⊢
  | case2 links here name rest fault henter =>
    rw [walk_of_error henter] at hwalk
    cases hwalk
  | case3 links here name rest next henter link hlink hend =>
    rw [walk_of_end henter hlink hend] at hwalk
    cases hwalk
    rcases (h place).link hlink with hlink' | hnone
    · exact walk_of_end (h.enter_of_ok henter) hlink' hend
    · rw [walk_of_not_link (h.enter_of_ok henter) (by simp [hnone])]
      obtain ⟨rfl, -⟩ : rest = [] ∧ toEnd = false := by simpa using hend
      rw [FileTree.walk]
  | case4 here name rest next henter link hlink hend =>
    rw [walk_of_loop henter hlink hend] at hwalk
    cases hwalk
  | case5 here name rest next henter link hlink hend links ih =>
    rw [walk_of_link henter hlink hend] at hwalk
    rw [linksOn_of_link henter hlink hend] at hlinks
    obtain ⟨hnext, hmore⟩ := List.forall_mem_cons.mp hlinks
    rw [walk_of_link (h.enter_of_ok henter) (((h next).link hlink).resolve_right hnext) hend]
    exact ih hwalk hmore
  | case6 links here name rest next henter hlink ih =>
    rw [walk_of_not_link henter hlink] at hwalk
    rw [linksOn_of_not_link henter hlink] at hlinks
    rw [h.walk_on henter hlink]
    exact ih hwalk hlinks

/-! ## Looking at paths -/

/-- Why a path cannot be used, whatever stands in the tree. -/
def pathFault? (path : String) : Option TreeFault :=
  if path.toList = [] then some .missing
  else if path.toList.contains '\x00' then some .invalid
  else if pathLimit ≤ path.utf8ByteSize then some .nameTooLong
  else none

def endsOpen (path : String) : Bool := path.toList.getLast? = some '/'

/-- What stands at the place to which a path leads. Behind a separator it has to be a directory. -/
def standing (t : FileTree) (isOpen : Bool) (place : Place) : Except TreeFault (Place × Entry) :=
  match t.find? place with
  | none => .error .missing
  | some entry => if isOpen && !entry.isDirectory then .error .notDirectory else .ok (place, entry)

theorem standing_eq_ok {isOpen : Bool} {goal : Place}
    (h : t.standing isOpen goal = .ok (place, entry)) :
    goal = place ∧ t.find? place = some entry := by
  unfold standing at h
  split at h
  · cases h
  · next hfind =>
    split at h
    · cases h
    · cases h
      exact ⟨rfl, hfind⟩

theorem find?_of_missing {isOpen : Bool} (h : t.standing isOpen place = .error .missing) :
    t.find? place = none := by
  unfold standing at h
  split at h
  · next hfind => exact hfind
  · split at h <;> cases h

/-- Looking at a path is walking along it and taking what stands there. -/
theorem lookAt_eq (t : FileTree) (here : Place) (path : String) : t.lookAt here path =
    match pathFault? path with
    | some fault => .error fault
    | none =>
      match t.walk maxLinks (endsOpen path) (startOf here path) (namesOf path) with
      | .error fault => .error fault
      | .ok place => t.standing (endsOpen path) place := by
  unfold FileTree.lookAt locate resolveWith pathFault?
  by_cases hempty : path.toList = []
  · rw [if_pos hempty, if_pos hempty]
    rfl
  by_cases hzero : path.toList.contains '\x00'
  · rw [if_neg hempty, if_neg hempty, if_pos hzero, if_pos hzero]
    rfl
  by_cases hlong : pathLimit ≤ path.utf8ByteSize
  · rw [if_neg hempty, if_neg hempty, if_neg hzero, if_neg hzero, if_pos hlong, if_pos hlong]
    rfl
  rw [if_neg hempty, if_neg hempty, if_neg hzero, if_neg hzero, if_neg hlong, if_neg hlong]
  simp only [Bool.false_or]
  unfold endsOpen
  cases t.walk maxLinks (decide (path.toList.getLast? = some '/')) (startOf here path)
      (namesOf path) with
  | error fault => rfl
  | ok place =>
    by_cases hopen : path.toList.getLast? = some '/'
    all_goals
      simp only [hopen, bind, Except.bind, standing, entryAt]
      cases hfind : t.find? place with
      | none => simp [pure, Except.pure, hfind]
      | some entry =>
        cases entry
        all_goals simp [pure, Except.pure, throw, throwThe, MonadExceptOf.throw, hfind,
          Entry.isDirectory]

theorem lookAt_of_walk (hpath : pathFault? path = none)
    (hwalk : t.walk maxLinks (endsOpen path) (startOf here path) (namesOf path) = .ok place) :
    t.lookAt here path = t.standing (endsOpen path) place := by
  rw [lookAt_eq, hpath]
  simp only [hwalk]

theorem lookAt_of_walk_error (hpath : pathFault? path = none)
    (hwalk : t.walk maxLinks (endsOpen path) (startOf here path) (namesOf path) = .error fault) :
    t.lookAt here path = .error fault := by
  rw [lookAt_eq, hpath]
  simp only [hwalk]

/-- The links that a path leads through. -/
def linksTo (t : FileTree) (here : Place) (path : String) : List Place :=
  t.linksOn maxLinks (endsOpen path) (startOf here path) (namesOf path)

/-- What is seen at a path later: nothing, or the same. -/
inductive Seen (t t' : FileTree) : Except TreeFault (Place × Entry) →
    Except TreeFault (Place × Entry) → Prop where
  | missing (before : Except TreeFault (Place × Entry)) : Seen t t' before (.error .missing)
  | fault (fault : TreeFault) : Seen t t' (.error fault) (.error fault)
  | found {place : Place} {entry entry' : Entry} : t.find? place = some entry →
      t'.find? place = some entry' → Seen t t' (.ok (place, entry)) (.ok (place, entry'))

theorem Fewer.standing (h : Fewer t t') (isOpen : Bool) (place : Place) :
    Seen t t' (t.standing isOpen place) (t'.standing isOpen place) := by
  have hkept := h place
  unfold FileTree.standing
  cases hbefore : t.find? place with
  | none =>
    rw [hbefore] at hkept
    generalize hafter : t'.find? place = after at hkept
    cases hkept
    exact .missing _
  | some entry =>
    rw [hbefore] at hkept
    generalize hafter : t'.find? place = after at hkept
    cases hkept with
    | same =>
      simp only
      split
      · exact .fault _
      · exact .found hbefore hafter
    | later =>
      simp only [Entry.isDirectory, Bool.not_true, Bool.and_false]
      exact .found hbefore hafter
    | gone => exact .missing _

theorem Fewer.lookAt (h : Fewer t t') (here : Place) (path : String) :
    Seen t t' (t.lookAt here path) (t'.lookAt here path) := by
  rw [lookAt_eq, lookAt_eq]
  cases pathFault? path with
  | some fault => exact .fault fault
  | none =>
    rcases h.walk maxLinks (endsOpen path) (startOf here path) (namesOf path) with
      hwalk | hwalk | ⟨place, hwalk, hnone⟩
    · simp only [hwalk]
      cases t.walk maxLinks (endsOpen path) (startOf here path) (namesOf path) with
      | error fault => exact .fault fault
      | ok place => exact h.standing (endsOpen path) place
    · simp only [hwalk]
      exact .missing _
    · simp only [hwalk, FileTree.standing, hnone]
      exact .missing _

theorem find?_of_lookAt (hlook : t.lookAt here path = .ok (place, entry)) :
    t.find? place = some entry := by
  rw [lookAt_eq] at hlook
  split at hlook
  · cases hlook
  · split at hlook
    · cases hlook
    · obtain ⟨rfl, hfind⟩ := standing_eq_ok hlook
      exact hfind

/-- What is missing stays missing. -/
theorem Fewer.missing (h : Fewer t t') (hlook : t.lookAt here path = .error .missing) :
    t'.lookAt here path = .error .missing := by
  have hseen := h.lookAt here path
  rw [hlook] at hseen
  generalize t'.lookAt here path = after at hseen
  cases hseen
  all_goals rfl

theorem Fewer.missing_of_gone (h : Fewer t t') (hlook : t.lookAt here path = .ok (place, entry))
    (hgone : t'.find? place = none) : t'.lookAt here path = .error .missing := by
  have hseen := h.lookAt here path
  rw [hlook] at hseen
  generalize t'.lookAt here path = after at hseen
  cases hseen with
  | missing => rfl
  | found _ hafter =>
    rw [hgone] at hafter
    cases hafter

/-- What is seen in the tree with fewer files was seen before. -/
theorem Fewer.lookAt_of_ok (h : Fewer t t') (hlook : t'.lookAt here path = .ok (place, entry)) :
    ∃ before, t.lookAt here path = .ok (place, before) := by
  have hseen := h.lookAt here path
  rw [hlook] at hseen
  generalize t.lookAt here path = before at hseen ⊢
  cases hseen with
  | found => exact ⟨_, rfl⟩

/-- A path behind which nothing is seen any more leads to what was taken away, or through a link
that was. -/
theorem Fewer.gone_or_link_gone (h : Fewer t t') (hlook : t.lookAt here path = .ok (place, entry))
    (hmissing : t'.lookAt here path = .error .missing) :
    t'.find? place = none ∨ ∃ link ∈ t.linksTo here path, t'.find? link = none := by
  by_cases hlinks : ∃ link ∈ t.linksTo here path, t'.find? link = none
  · exact .inr hlinks
  have hlinks : ∀ link ∈ t.linksTo here path, t'.find? link ≠ none := fun link hlink hgone =>
    hlinks ⟨link, hlink, hgone⟩
  cases hpath : pathFault? path with
  | some fault =>
    rw [lookAt_eq, hpath] at hlook
    cases hlook
  | none =>
    cases hwalk : t.walk maxLinks (endsOpen path) (startOf here path) (namesOf path) with
    | error fault =>
      rw [lookAt_of_walk_error hpath hwalk] at hlook
      cases hlook
    | ok goal =>
      rw [lookAt_of_walk hpath hwalk] at hlook
      rw [lookAt_of_walk hpath (h.walk_of_links hwalk hlinks), (standing_eq_ok hlook).1] at hmissing
      exact .inl (find?_of_missing hmissing)

/-! ## Taking something away -/

/-- Exactly what stood at the given places was taken away. The directories around them note when
that was, and nothing else is changed. -/
structure TakesAway (now : Timestamp) (gone : List Place) (t t' : FileTree) : Prop where
  nodup : gone.Nodup
  stood : ∀ place ∈ gone, ∃ entry, t.find? place = some entry ∧ entry.isDirectory = false
  away : ∀ place ∈ gone, t'.find? place = none
  others : ∀ place, place ∉ gone → t'.find? place = t.find? place ∨
    (∃ other ∈ gone, other.dropLast = place) ∧ ∃ time mode,
      t.find? place = some (.directory time mode) ∧ t'.find? place = some (.directory now mode)
  bodies : t'.bodies = t.bodies

theorem TakesAway.fewer {now : Timestamp} {gone : List Place} (h : TakesAway now gone t t') :
    Fewer t t' := by
  intro place
  by_cases hplace : place ∈ gone
  · obtain ⟨entry, hentry, hdir⟩ := h.stood place hplace
    rw [hentry, h.away place hplace]
    exact .gone hdir
  · rcases h.others place hplace with hsame | ⟨-, time, mode, hbefore, hafter⟩
    · rw [hsame]
      exact .same _
    · rw [hbefore, hafter]
      exact .later time now mode

/-- What stood somewhere and no longer does was taken away. -/
theorem TakesAway.mem_of_none {now : Timestamp} {gone : List Place} (h : TakesAway now gone t t')
    (hbefore : t.find? place = some entry) (hafter : t'.find? place = none) : place ∈ gone := by
  by_cases hplace : place ∈ gone
  · exact hplace
  · rcases h.others place hplace with hsame | ⟨-, time, mode, -, hstays⟩
    · rw [hafter, hbefore] at hsame
      cases hsame
    · rw [hafter] at hstays
      cases hstays

theorem TakesAway.refl (now : Timestamp) (t : FileTree) : TakesAway now [] t t :=
  ⟨.nil, nofun, nofun, fun _ _ => .inl rfl, rfl⟩

theorem TakesAway.trans {now : Timestamp} {gone more : List Place} (h : TakesAway now gone t t')
    (h' : TakesAway now more t' t'') : TakesAway now (gone ++ more) t t'' := by
  have hnot : ∀ place ∈ more, place ∉ gone := fun place hmore hgone => by
    obtain ⟨entry, hentry, -⟩ := h'.stood place hmore
    rw [h.away place hgone] at hentry
    cases hentry
  refine ⟨List.nodup_append.mpr ⟨h.nodup, h'.nodup, ?_⟩, fun place hplace => ?_,
    fun place hplace => ?_, fun place hplace => ?_, h'.bodies.trans h.bodies⟩
  · rintro place hgone _ hmore rfl
    exact hnot place hmore hgone
  · rcases List.mem_append.mp hplace with hgone | hmore
    · exact h.stood place hgone
    · obtain ⟨entry, hentry, hdir⟩ := h'.stood place hmore
      rcases h.others place (hnot place hmore) with hsame | ⟨-, time, mode, -, hafter⟩
      · exact ⟨entry, hsame ▸ hentry, hdir⟩
      · rw [hafter] at hentry
        cases hentry
        cases hdir
  · rcases List.mem_append.mp hplace with hgone | hmore
    · exact h'.fewer.find?_none (h.away place hgone)
    · exact h'.away place hmore
  · rw [List.mem_append, not_or] at hplace
    have hlater (other : Place) (hother : other ∈ gone ∨ other ∈ more)
        (haround : other.dropLast = place) : ∃ other ∈ gone ++ more, other.dropLast = place :=
      ⟨other, List.mem_append.mpr hother, haround⟩
    rcases h'.others place hplace.2 with hsame' |
      ⟨⟨other', hother', haround'⟩, time', mode', hbefore', hafter'⟩
    · rw [hsame']
      refine (h.others place hplace.1).imp_right ?_
      rintro ⟨⟨other, hother, haround⟩, htime⟩
      exact ⟨hlater other (.inl hother) haround, htime⟩
    · refine .inr ⟨hlater other' (.inr hother') haround', ?_⟩
      rcases h.others place hplace.1 with hsame | ⟨-, time, mode, hbefore, hafter⟩
      · exact ⟨time', mode', hsame ▸ hbefore', hafter'⟩
      · rw [hafter] at hbefore'
        cases hbefore'
        exact ⟨time, _, hbefore, hafter'⟩

theorem takesAway_discard (now : Timestamp) (hfind : t.find? place = some entry)
    (hdir : entry.isDirectory = false) : TakesAway now [place] t (t.discard now place) := by
  have hsplit : (∃ time mode, place.dropLast ≠ place ∧
      t.find? place.dropLast = some (.directory time mode) ∧
      t.discard now place = (t.erase place).put place.dropLast (.directory now mode)) ∨
      t.discard now place = t.erase place := by
    unfold discard touchAround
    split
    · next time mode haround =>
      rw [find?_erase] at haround
      split at haround
      · cases haround
      · next hne => exact .inl ⟨time, mode, hne, haround, rfl⟩
    · exact .inr rfl
  refine ⟨List.pairwise_singleton _ _, ?_, ?_, fun other hother => ?_, ?_⟩
  · intro other hother
    rw [List.mem_singleton.mp hother]
    exact ⟨entry, hfind, hdir⟩
  · intro other hother
    rw [List.mem_singleton.mp hother]
    rcases hsplit with ⟨time, mode, hne, -, hdiscard⟩ | hdiscard
    · rw [hdiscard, find?_put, if_neg hne.symm, find?_erase, if_pos rfl]
    · rw [hdiscard, find?_erase, if_pos rfl]
  · have hne : other ≠ place := fun heq => hother (List.mem_singleton.mpr heq)
    rcases hsplit with ⟨time, mode, -, haround, hdiscard⟩ | hdiscard
    · by_cases hdirectory : other = place.dropLast
      · refine .inr ⟨⟨place, List.mem_singleton_self place, hdirectory.symm⟩, time, mode, ?_, ?_⟩
        · rw [hdirectory, haround]
        · rw [hdiscard, find?_put, if_pos hdirectory]
      · rw [hdiscard, find?_put, if_neg hdirectory, find?_erase, if_neg hne]
        exact .inl rfl
    · rw [hdiscard, find?_erase, if_neg hne]
      exact .inl rfl
  · rcases hsplit with ⟨time, mode, -, -, hdiscard⟩ | hdiscard
    · rw [hdiscard]
      rfl
    · rw [hdiscard]
      rfl

end Rebuild.FileTree
