import Rebuild.Cursor

/-!
# Lines of a manifest

A line of a manifest goes on after a line end that follows a `$`, except in a comment and in the
first line of a `rule` or `pool` statement, which have no values. `LineStart` holds of the places at
which a line begins.

Two texts share a line if they are the same up to the end of that line. What comes after may be
different: `LinesUp` holds of a relation between texts if they share line after line until one of
them has a comment in between.
-/

namespace Rebuild.Manifest

/-- What follows the first line of a text, if that line has an end. The line goes on over the end if
`escaped` is set, or after a `$` if the line has escapes. -/
def lineRest? (escapes : Bool) : (escaped : Bool) → List Char → Option (List Char)
  | _, [] => none
  | false, '\n' :: rest => some rest
  | false, '\r' :: '\n' :: rest => some rest
  | false, '\r' :: rest => some rest
  | true, '\r' :: '\n' :: rest => lineRest? escapes false rest
  | true, _ :: rest => lineRest? escapes false rest
  | false, c :: rest => lineRest? escapes (escapes && c = '$') rest

/-- Whether a `$` means something in the first line of a text: it does not in comments, and it is
not allowed in front of the comment that may follow the name of a rule or pool. -/
def escapesIn (text : List Char) : Bool :=
  (text.dropWhile isSpace).head? ≠ some '#' &&
    match TokenKind.keyword? (String.ofList (text.takeWhile isIdentChar)) with
    | some .rule | some .pool => false
    | _ => true

/-- A line of the text begins where only `rest` is left. -/
inductive LineStart (rest : List Char) : List Char → Prop where
  | here : LineStart rest rest
  | later {text more : List Char} : lineRest? (escapesIn text) false text = some more →
      LineStart rest more → LineStart rest text

/-- A line that holds a comment and nothing else. -/
def commentLine (indent : Nat) (note : List Char) : List Char :=
  List.replicate indent ' ' ++ '#' :: (note ++ ['\n'])

/-- A binding of the file begins the text: a word, not indented, that is no keyword. -/
def BindsAt (text : List Char) : Prop :=
  text.takeWhile isIdentChar ≠ [] ∧
    TokenKind.keyword? (String.ofList (text.takeWhile isIdentChar)) = none

instance (text : List Char) : Decidable (BindsAt text) := inferInstanceAs (Decidable (_ ∧ _))

/-! ## Sharing a line -/

/-- Two texts begin with the same line end, after which `rest` and `rest'` are left. -/
inductive SameEnd : (text text' rest rest' : List Char) → Prop where
  | lf (t t') : SameEnd ('\n' :: t) ('\n' :: t') t t'
  | crlf (t t') : SameEnd ('\r' :: '\n' :: t) ('\r' :: '\n' :: t') t t'
  | cr {t t'} : t.head? ≠ some '\n' → t'.head? ≠ some '\n' → SameEnd ('\r' :: t) ('\r' :: t') t t'

/-- Two texts are the same up to the end of the line, and what follows is related by `R`. -/
inductive SameLine (escapes : Bool) (R : List Char → List Char → Prop) :
    (escaped : Bool) → List Char → List Char → Prop where
  | ended {escaped} : R [] [] → SameLine escapes R escaped [] []
  | lineEnd {t t' u u'} : SameEnd t t' u u' → R u u' → SameLine escapes R false t t'
  | goesOn {t t' u u'} : SameEnd t t' u u' → SameLine escapes R false u u' →
      SameLine escapes R true t t'
  | char {c u u'} : isLineEnd c = false → SameLine escapes R (escapes && c = '$') u u' →
      SameLine escapes R false (c :: u) (c :: u')
  | escaped {c u u'} : isLineEnd c = false → SameLine escapes R false u u' →
      SameLine escapes R true (c :: u) (c :: u')

/-- Related texts share their first line, or the second one has a comment more before it. In that
case the texts after the comment are related again, unless they begin with a binding. -/
structure LinesUp (R : List Char → List Char → Prop) : Prop where
  length_le {t t' : List Char} : R t t' → t.length ≤ t'.length
  line {t t' : List Char} : R t t' → SameLine (escapesIn t) R false t t' ∨
    ∃ indent note, (∀ c ∈ note, isLineEnd c = false) ∧ t' = commentLine indent note ++ t ∧
      (R t t ∨ BindsAt t)

variable {escapes escaped : Bool} {R : List Char → List Char → Prop}
  {text text' rest rest' : List Char}

theorem SameEnd.length_eq (h : SameEnd text text' rest rest') :
    rest.length < text.length ∧
      text'.length + rest.length = text.length + rest'.length := by
  cases h <;> simp <;> omega

theorem SameEnd.front (h : SameEnd text text' rest rest') :
    ∃ c u u', text = c :: u ∧ text' = c :: u' ∧ isLineEnd c = true := by
  cases h <;> exact ⟨_, _, _, rfl, rfl, rfl⟩

theorem SameLine.length_le (hR : ∀ t t', R t t' → t.length ≤ t'.length)
    (h : SameLine escapes R escaped text text') : text.length ≤ text'.length := by
  induction h with
  | ended _ => exact Nat.le_refl _
  | lineEnd hend hrest =>
    have := hend.length_eq
    have := hR _ _ hrest
    omega
  | goesOn hend _ ih =>
    have := hend.length_eq
    omega
  | char _ _ ih | escaped _ _ ih => exact Nat.succ_le_succ ih

/-- Any character may follow a `$`. -/
theorem SameLine.escapedChar {c : Char} (h : SameLine escapes R false rest rest')
    (hr : c = '\r' → rest.head? ≠ some '\n' ∧ rest'.head? ≠ some '\n') :
    SameLine escapes R true (c :: rest) (c :: rest') := by
  by_cases hlf : c = '\n'
  · subst hlf; exact .goesOn (.lf rest rest') h
  by_cases hcr : c = '\r'
  · subst hcr; exact .goesOn (.cr (hr rfl).1 (hr rfl).2) h
  · exact .escaped (by simp [isLineEnd, hlf, hcr]) h

private theorem head?_ne_of_forall (h : ∀ t, rest = '\n' :: t → False) :
    rest.head? ≠ some '\n' := by
  cases rest with
  | nil => nofun
  | cons c rest => rintro ⟨⟩; exact h rest rfl

/-- A text shares its first line with itself if what follows the line is related to itself. -/
theorem SameLine.self (h : R ((lineRest? escapes escaped text).getD [])
    ((lineRest? escapes escaped text).getD [])) : SameLine escapes R escaped text text := by
  fun_induction lineRest? escapes escaped text with
  | case1 => exact .ended h
  | case2 rest => exact .lineEnd (.lf rest rest) h
  | case3 rest => exact .lineEnd (.crlf rest rest) h
  | case4 rest hcrlf =>
    have hhead := head?_ne_of_forall hcrlf
    exact .lineEnd (.cr hhead hhead) h
  | case5 rest ih => exact .goesOn (.crlf rest rest) (ih h)
  | case6 c rest hcrlf ih =>
    exact (ih h).escapedChar fun hc =>
      have hhead := head?_ne_of_forall fun t => hcrlf t hc
      ⟨hhead, hhead⟩
  | case7 c rest hlf _ hcr ih => exact .char (by simpa [isLineEnd] using ⟨hlf, hcr⟩) (ih h)

theorem SameLine.refl (hR : ∀ t, R t t) (escapes escaped : Bool) (text : List Char) :
    SameLine escapes R escaped text text :=
  .self (hR _)

/-- A line is shared by the texts in which it is followed by related ones, as long as these do not go
on with its end. -/
theorem exists_line_append (h : lineRest? escapes escaped text = some rest) :
    ∃ line, line ≠ [] ∧ text = line ++ rest ∧
      (line.getLast? = some '\r' → rest.head? ≠ some '\n') ∧
      ∀ (R : List Char → List Char → Prop) u u', R u u' →
        (line.getLast? = some '\r' → u.head? ≠ some '\n' ∧ u'.head? ≠ some '\n') →
          SameLine escapes R escaped (line ++ u) (line ++ u') := by
  fun_induction lineRest? escapes escaped text with
  | case1 => cases h
  | case2 more =>
    cases h
    exact ⟨['\n'], nofun, rfl, fun hlast => absurd hlast (by decide),
      fun _ u u' hu _ => .lineEnd (.lf _ _) hu⟩
  | case3 more =>
    cases h
    exact ⟨['\r', '\n'], nofun, rfl, fun hlast => absurd hlast (by decide),
      fun _ u u' hu _ => .lineEnd (.crlf _ _) hu⟩
  | case4 more hcrlf =>
    cases h
    exact ⟨['\r'], nofun, rfl, fun _ => head?_ne_of_forall hcrlf,
      fun _ u u' hu hends => .lineEnd (.cr (hends rfl).1 (hends rfl).2) hu⟩
  | case5 more ih =>
    obtain ⟨line, hne, rfl, hlast, hline⟩ := ih h
    refine ⟨'\r' :: '\n' :: line, nofun, rfl, ?_, fun R u u' hu hends => .goesOn (.crlf _ _) ?_⟩
    · rwa [List.getLast?_cons_cons, List.getLast?_cons_of_ne_nil hne]
    · rw [List.getLast?_cons_cons, List.getLast?_cons_of_ne_nil hne] at hends
      exact hline R u u' hu hends
  | case6 c more hcrlf ih =>
    obtain ⟨line, hne, rfl, hlast, hline⟩ := ih h
    refine ⟨c :: line, nofun, rfl, by rwa [List.getLast?_cons_of_ne_nil hne], fun R u u' hu hends => ?_⟩
    rw [List.getLast?_cons_of_ne_nil hne] at hends
    -- The line goes on with the same character in all texts.
    have hhead (t : List Char) : (line ++ t).head? = line.head? := by
      rw [List.head?_append, Option.or_of_isSome (List.isSome_head?.mpr hne)]
    refine (hline R u u' hu hends).escapedChar fun hc => ?_
    have := head?_ne_of_forall fun t => hcrlf t hc
    rw [hhead] at this ⊢
    exact ⟨this, by rwa [hhead]⟩
  | case7 c more hlf _ hcr ih =>
    obtain ⟨line, hne, rfl, hlast, hline⟩ := ih h
    refine ⟨c :: line, nofun, rfl, by rwa [List.getLast?_cons_of_ne_nil hne], fun R u u' hu hends => ?_⟩
    rw [List.getLast?_cons_of_ne_nil hne] at hends
    exact .char (by simpa [isLineEnd] using ⟨hlf, hcr⟩) (hline R u u' hu hends)

/-- Texts that are the same up to a line start share the line before it. -/
theorem exists_line (h : lineRest? escapes escaped text = some rest) :
    ∃ line, line ≠ [] ∧ text = line ++ rest ∧ ∀ rest', R rest rest' →
      (rest'.head? = some '\n' → rest.head? = some '\n') →
        SameLine escapes R escaped text (line ++ rest') := by
  obtain ⟨line, hne, rfl, hlast, hline⟩ := exists_line_append h
  refine ⟨line, hne, rfl, fun rest' hrest hhead => hline R rest rest' hrest fun hreturn => ?_⟩
  exact ⟨hlast hreturn, mt hhead (hlast hreturn)⟩

/-! ## A comment that is added at a line start -/

/-- The second text has a comment before `rest` that the first does not have, or both of them begin
behind it. -/
def Commented (indent : Nat) (note rest : List Char) (text text' : List Char) : Prop :=
  (∃ before, LineStart rest (before ++ rest) ∧ text = before ++ rest ∧
    text' = before ++ (commentLine indent note ++ rest)) ∨
  (text = text' ∧ ¬ BindsAt rest)

theorem LineStart.exists_append (h : LineStart rest text) : ∃ before, text = before ++ rest := by
  induction h with
  | here => exact ⟨[], rfl⟩
  | later hline _ ih =>
    obtain ⟨before, rfl⟩ := ih
    obtain ⟨line, -, rfl, -⟩ := exists_line (R := Eq) hline
    exact ⟨line ++ before, (List.append_assoc ..).symm⟩

theorem front_of_commentLine (indent : Nat) (note rest : List Char) :
    ∃ c u, commentLine indent note ++ rest = c :: u ∧ (c = ' ' ∨ c = '#') := by
  cases indent with
  | zero => exact ⟨'#', note ++ ['\n'] ++ rest, rfl, .inr rfl⟩
  | succ indent => exact ⟨' ', commentLine indent note ++ rest, rfl, .inl rfl⟩

theorem Commented.linesUp (indent : Nat) {note : List Char}
    (hnote : ∀ c ∈ note, isLineEnd c = false) (rest : List Char) :
    LinesUp (Commented indent note rest) where
  length_le := by
    rintro text text' (⟨before, -, rfl, rfl⟩ | ⟨rfl, -⟩)
    · simp only [List.length_append]; omega
    · exact Nat.le_refl _
  line := by
    rintro text text' (⟨before, hstart, rfl, rfl⟩ | ⟨rfl, hbinds⟩)
    · generalize htext : before ++ rest = text at hstart
      cases hstart with
      | here =>
        have hbefore : before = [] := List.append_left_eq_self.mp htext
        subst hbefore
        refine .inr ⟨indent, note, hnote, rfl, ?_⟩
        by_cases hbinds : BindsAt rest
        · exact .inr hbinds
        · exact .inl (.inr ⟨rfl, hbinds⟩)
      | later hline hmore =>
        obtain ⟨before', rfl⟩ := hmore.exists_append
        obtain ⟨line, -, rfl, hsame⟩ := exists_line (R := Commented indent note rest) hline
        have hbefore : before = line ++ before' :=
          List.append_cancel_right (htext.trans (List.append_assoc ..).symm)
        subst hbefore
        rw [List.append_assoc]
        refine .inl (hsame _ (.inl ⟨before', hmore, rfl, rfl⟩) ?_)
        cases before' with
        | nil =>
          obtain ⟨c, u, hu, hc⟩ := front_of_commentLine indent note rest
          rw [List.nil_append, hu]
          rintro ⟨⟩
          simp at hc
        | cons c before' => exact id
    · exact .inl (.refl (fun t => .inr ⟨rfl, hbinds⟩) ..)

/-- Texts end together only where the comment is behind, and is followed by no binding. -/
theorem Commented.not_bindsAt {indent : Nat} {note : List Char}
    (h : Commented indent note rest [] []) : ¬ BindsAt rest := by
  obtain ⟨before, -, -, h⟩ | ⟨-, h⟩ := h
  · simp [commentLine] at h
  · exact h

end Rebuild.Manifest
