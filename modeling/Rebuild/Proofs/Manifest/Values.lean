import Rebuild.Proofs.Manifest.Cursors

/-!
# Names and values in the same line

Cursors that share a line with escapes read the same names and the same values in it. A value can go
on over line ends, which both cursors share as well.

A path that turns out empty ends where no comment follows: its end is a colon, a bar, or the end of
the line, since spaces are passed over before a path and after a line that goes on.
-/

namespace Rebuild

open Manifest

namespace Template

theorem appendLiteral_ne_nil (text : String) (fragments : List Fragment) :
    appendLiteral text fragments ≠ [] := by
  unfold appendLiteral
  split
  all_goals nofun

theorem isEmpty_pushLiteral {t : Template} {text : String} :
    (t.pushLiteral text).isEmpty = true ↔ t.isEmpty = true ∧ text = "" := by
  unfold pushLiteral
  split
  · next h => simp [h]
  · next h => simp [isEmpty, h, appendLiteral_ne_nil]

@[simp] theorem isEmpty_pushVar (t : Template) (name : String) :
    (t.pushVar name).isEmpty = false := by
  simp [isEmpty, pushVar]

end Template

namespace Cursor

variable {escapes : Bool} {R : List Char → List Char → Prop} {c d c' : Cursor} {t u : Template}
  {mode : ValueMode}

/-! ## Names -/

theorem length_ident_lt {name : String} (h : c.ident = .ok name c') :
    c'.rest.length < c.rest.length := by
  unfold Cursor.ident at h
  dsimp only at h
  split at h
  · cases h
  · next hname =>
    cases h
    refine Nat.lt_of_lt_of_le (length_skipWhile_lt_of_ne ?_) (length_skipWhile_le isSpace c)
    simpa using hname

theorem SharesLine.ident {name : String} (h : SharesLine escapes R c.inLine d.inLine)
    (hread : c.ident = .ok name c') :
    ∃ d', d.ident = .ok name d' ∧ SharesLine escapes R c' d' := by
  replace h := h.skipWhile (plain_isSpace escapes)
  have hword := h.takeWhile_eq (plain_isIdentChar escapes)
  unfold Cursor.ident at hread ⊢
  dsimp only at hread ⊢
  rw [← hword]
  split at hread
  · cases hread
  · next hname =>
    cases hread
    rw [if_neg hname]
    exact ⟨_, rfl, h.skipWhile (plain_isIdentChar escapes)⟩

/-! ## Escapes -/

theorem escape_isEmpty (h : c.escape t = .ok u c') (hu : u.isEmpty = true) :
    t.isEmpty = true ∧ c'.rest.head? ≠ some ' ' := by
  unfold escape at h
  dsimp only at h
  split at h
  · cases h; simp [Template.isEmpty_pushLiteral] at hu
  · cases h; simp [Template.isEmpty_pushLiteral] at hu
  · cases h; simp [Template.isEmpty_pushLiteral] at hu
  · split at h
    · split at h
      · cases h
      · cases h; simp at hu
    · cases h
  · split at h
    · cases h
      refine ⟨hu, fun hspace => ?_⟩
      cases eq_false_of_head?_dropWhile hspace
    split at h
    · cases h; simp at hu
    · cases h
  · cases h

theorem escape_of_lineEnd {ch : Char} {v : List Char} (h : c.skip.rest = ch :: v)
    (hch : isLineEnd ch = true) :
    c.escape t = .ok t (c.skip.skipLineEnd.inLine.skipWhile isSpaceOrTab) := by
  unfold escape
  dsimp only
  rw [h]
  split
  case h_5 hu => cases hu; rw [if_pos hch]
  case h_6 hu => cases hu
  all_goals next hu => cases hu; exact absurd hch (by decide)

theorem escape_of_simpleVar {ch : Char} {v : List Char} (h : c.skip.rest = ch :: v)
    (hch : isSimpleVarChar ch = true) : c.escape t =
      .ok (t.pushVar (String.ofList (c.skip.rest.takeWhile isSimpleVarChar)))
        (c.skip.skipWhile isSimpleVarChar) := by
  unfold escape
  dsimp only
  rw [h]
  split
  case h_5 hu =>
    cases hu
    rw [if_neg (by simp [(plain_isSimpleVarChar false ch hch).1]), if_pos hch]
  case h_6 hu => cases hu
  all_goals next hu => cases hu; exact absurd hch (by decide)

theorem escape_of_brace {v w : List Char} (h : c.skip.rest = '{' :: v)
    (hname : c.skip.skip.rest.takeWhile isIdentChar ≠ [])
    (hclose : (c.skip.skip.skipWhile isIdentChar).rest = '}' :: w) :
    c.escape t = .ok (t.pushVar (String.ofList (c.skip.skip.rest.takeWhile isIdentChar)))
      (c.skip.skip.skipWhile isIdentChar).skip := by
  unfold escape
  dsimp only
  rw [h]
  simp only [hclose]
  rw [if_neg (by simpa using hname)]

theorem SharesLine.escape {v : List Char} (h : SharesLine true R c d) (hc : c.rest = '$' :: v)
    (hread : c.escape t = .ok u c') :
    ∃ d', d.escape t = .ok u d' ∧ SharesLine true R c' d' := by
  obtain ⟨v', hd, hv⟩ := (hc ▸ h.rest).cons rfl
  have hcv := rest_skip hc
  have hdv := rest_skip hd
  have hinside := (atLineStart_skip c).trans h.inside
  have hinside' := (atLineStart_skip d).trans h.inside'
  cases hv with
  | ended _ => simp [Cursor.escape, hcv] at hread
  | goesOn hend hrest =>
    obtain ⟨ch, w, w', hw, hw', hch⟩ := hend.front
    rw [escape_of_lineEnd (hcv.trans hw) hch] at hread
    cases hread
    refine ⟨_, escape_of_lineEnd (hdv.trans hw') hch, ?_⟩
    obtain ⟨width, hskip, hskip'⟩ := skipLineEnd_of_sameEnd (hcv ▸ hdv ▸ hend)
    rw [hskip, hskip']
    exact SharesLine.skipWhile ⟨rfl, rfl, hrest⟩ (plain_isSpaceOrTab true)
  | @escaped ch w w' hch hrest =>
    have hskip : SharesLine true R c.skip.skip d.skip.skip :=
      ⟨(atLineStart_skip _).trans hinside, (atLineStart_skip _).trans hinside',
        by rwa [rest_skip hcv, rest_skip hdv]⟩
    unfold Cursor.escape at hread
    dsimp only at hread
    split at hread
    case h_1 hu =>
      cases hcv.symm.trans hu
      cases hread
      exact ⟨_, by rw [Cursor.escape, hdv]; rfl, hskip⟩
    case h_2 hu =>
      cases hcv.symm.trans hu
      cases hread
      exact ⟨_, by rw [Cursor.escape, hdv]; rfl, hskip⟩
    case h_3 hu =>
      cases hcv.symm.trans hu
      cases hread
      exact ⟨_, by rw [Cursor.escape, hdv]; rfl, hskip⟩
    case h_4 hu =>
      cases hcv.symm.trans hu
      split at hread
      case h_1 hclose =>
        split at hread
        · cases hread
        · next hname =>
          cases hread
          have hword := hskip.takeWhile_eq (plain_isIdentChar true)
          obtain ⟨x, hx, h⟩ := (hskip.skipWhile (plain_isIdentChar true)).skip hclose rfl (by simp)
          rw [hword] at hname ⊢
          exact ⟨_, escape_of_brace hdv (by simpa using hname) hx, h⟩
      case h_2 => cases hread
    case h_5 hdollar _ _ _ hu =>
      cases hcv.symm.trans hu
      -- Apart from another `$`, what is escaped could also stand by itself.
      have h : SharesLine true R c.skip d.skip :=
        ⟨hinside, hinside', by
          rw [hcv, hdv]
          exact .char hch (by simpa [show ch ≠ '$' from hdollar] using hrest)⟩
      rw [if_neg (by simp [hch])] at hread
      split at hread
      · next hvar =>
        cases hread
        rw [h.takeWhile_eq (plain_isSimpleVarChar true)]
        exact ⟨_, escape_of_simpleVar hdv hvar, h.skipWhile (plain_isSimpleVarChar true)⟩
      · cases hread
    case h_6 hu => cases hcv.symm.trans hu

/-! ## Values -/

/-- Where the cursors are after a value. -/
def AfterValue (R : List Char → List Char → Prop) : ValueMode → Cursor → Cursor → Prop
  | .path => SharesLine true R
  | .line => EndsLine R

theorem endsLine_of_atEnd (h : SameLine escapes R false c.rest d.rest) (hc : AtEnd c) :
    EndsLine R c.skipLineEnd d.skipLineEnd := by
  obtain ⟨hnil, hnil', hR⟩ | ⟨v, v', hend, hR⟩ | ⟨ch, v, v', hch, hv, -, -⟩ := h.front
  · refine .inr ⟨?_, ?_, hR⟩
    · simp [skipLineEnd, hnil]
    · simp [skipLineEnd, hnil']
  · obtain ⟨width, hskip, hskip'⟩ := skipLineEnd_of_sameEnd hend
    rw [hskip, hskip']
    exact .inl ⟨rfl, rfl, hR⟩
  · simp [hc ch (by rw [hv]; rfl)] at hch

theorem pieces_of_escape {v : List Char} {t' : Template}
    (hfront : (c.skipWhile mode.isPlain).rest = '$' :: v)
    (hread : (c.skipWhile mode.isPlain).escape
      (t.pushLiteral (String.ofList (c.rest.takeWhile mode.isPlain))) = .ok t' c') :
    pieces mode c t = pieces mode c' t' := by
  rw [pieces.eq_def mode c t]
  dsimp only
  split
  · split
    · next heq =>
      cases hread.symm.trans heq
      rfl
    · next heq => cases hread.symm.trans heq
  · next hne => exact absurd hfront (hne v)

theorem pieces_path_of_end (hfront : ∀ v, (c.skipWhile ValueMode.path.isPlain).rest ≠ '$' :: v) :
    pieces .path c t =
      .ok (t.pushLiteral (String.ofList (c.rest.takeWhile ValueMode.path.isPlain)))
        (c.skipWhile ValueMode.path.isPlain) := by
  rw [pieces.eq_def .path c t]
  dsimp only
  split
  · next h => exact absurd h (hfront _)
  · rfl

theorem pieces_line_of_end (hfront : ∀ v, (c.skipWhile ValueMode.line.isPlain).rest ≠ '$' :: v) :
    pieces .line c t =
      .ok (t.pushLiteral (String.ofList (c.rest.takeWhile ValueMode.line.isPlain)))
        (c.skipWhile ValueMode.line.isPlain).skipLineEnd := by
  rw [pieces.eq_def .line c t]
  dsimp only
  split
  · next h => exact absurd h (hfront _)
  · rfl

/-- A value that ends with the line takes in everything up to the end. -/
theorem atEnd_of_line (hfront : ∀ v, (c.skipWhile ValueMode.line.isPlain).rest ≠ '$' :: v) :
    AtEnd (c.skipWhile ValueMode.line.isPlain) := by
  intro ch hch
  have hstop := eq_false_of_head?_dropWhile hch
  obtain ⟨v, hv⟩ := List.head?_eq_some_iff.mp hch
  refine Decidable.byContradiction fun hend => ?_
  have hdollar : ch ≠ '$' := fun hdollar => hfront v (hdollar ▸ hv)
  simp [ValueMode.isPlain, hend, hdollar] at hstop

theorem SharesLine.pieces (h : SharesLine true R c d) (hread : pieces mode c t = .ok u c') :
    ∃ d', Cursor.pieces mode d t = .ok u d' ∧ AfterValue R mode c' d' := by
  have hend {c d : Cursor} (h : SharesLine true R c d)
      (hfront : ∀ v, c.rest = '$' :: v → False) : ∀ v, d.rest ≠ '$' :: v := by
    intro v hv
    have hhead := h.rest.head?_eq
    rw [hv] at hhead
    obtain ⟨w, hw⟩ := List.head?_eq_some_iff.mp hhead
    exact hfront w hw
  fun_induction Cursor.pieces mode c t generalizing d with
  | case1 c t t₁ c₁ v hfront t₂ c₂ hescape =>
    rename_i ih
    have hplain := h.takeWhile_eq (plain_isPlain mode true)
    replace h := h.skipWhile (plain_isPlain mode true)
    obtain ⟨v', hfront', -⟩ := (hfront ▸ h.rest).cons rfl
    obtain ⟨d₂, hescape', h₂⟩ := h.escape hfront hescape
    obtain ⟨d', hd', hafter⟩ := ih h₂ hread
    refine ⟨d', ?_, hafter⟩
    rw [← hd']
    exact pieces_of_escape hfront' (hplain ▸ hescape')
  | case2 => cases hread
  | case3 c t t₁ c₁ hmode =>
    have hfront : ∀ v, c₁.rest = '$' :: v → False := ‹_›
    obtain ⟨hu, hc'⟩ : t₁ = u ∧ c₁ = c' := by simpa using hread
    subst hmode
    rw [← hu, ← hc']
    have hplain := h.takeWhile_eq (plain_isPlain .path true)
    replace h := h.skipWhile (plain_isPlain .path true)
    exact ⟨_, (pieces_path_of_end (hend h hfront)).trans (by rw [← hplain]), h⟩
  | case4 c t t₁ c₁ hmode =>
    have hfront : ∀ v, c₁.rest = '$' :: v → False := ‹_›
    obtain ⟨hu, hc'⟩ : t₁ = u ∧ c₁.skipLineEnd = c' := by simpa using hread
    subst hmode
    rw [← hu, ← hc']
    have hplain := h.takeWhile_eq (plain_isPlain .line true)
    replace h := h.skipWhile (plain_isPlain .line true)
    exact ⟨_, (pieces_line_of_end (hend h hfront)).trans (by rw [← hplain]),
      endsLine_of_atEnd h.rest (atEnd_of_line hfront)⟩

/-- Cursors in the same line read the same value. -/
theorem SharesLine.value (h : SharesLine true R c.inLine d.inLine)
    (hread : c.value mode = .ok u c') :
    ∃ d', d.value mode = .ok u d' ∧ AfterValue R mode c' d' :=
  (h.skipWhile (plain_isSpace true)).pieces hread

/-! ## How far values go -/

theorem pushLiteral_takeWhile_of_nil {p : Char → Bool} (h : c.rest.takeWhile p = []) :
    t.pushLiteral (String.ofList (c.rest.takeWhile p)) = t := by
  rw [h]
  rfl

theorem length_pieces (h : pieces mode c t = .ok u c') :
    c'.rest.length ≤ c.rest.length ∧ (u ≠ t → c'.rest.length < c.rest.length) := by
  fun_induction Cursor.pieces mode c t with
  | case1 c t t₁ c₁ v hfront t₂ c₂ hescape ih =>
    have hlt := Nat.lt_of_lt_of_le (length_escape_lt hfront hescape) (length_skipWhile_le ..)
    have hle := Nat.lt_of_le_of_lt (ih h).1 hlt
    exact ⟨Nat.le_of_lt hle, fun _ => hle⟩
  | case2 => cases h
  | case3 c t t₁ c₁ hmode hfront =>
    obtain ⟨hu, hc'⟩ : t₁ = u ∧ c₁ = c' := by simpa using h
    rw [← hu, ← hc']
    refine ⟨length_skipWhile_le .., fun hne => length_skipWhile_lt_of_ne fun hnil => hne ?_⟩
    exact pushLiteral_takeWhile_of_nil hnil
  | case4 c t t₁ c₁ hmode hfront =>
    obtain ⟨hu, hc'⟩ : t₁ = u ∧ c₁.skipLineEnd = c' := by simpa using h
    rw [← hu, ← hc']
    refine ⟨Nat.le_trans (length_skipLineEnd_le _) (length_skipWhile_le ..), fun hne =>
      Nat.lt_of_le_of_lt (length_skipLineEnd_le _) (length_skipWhile_lt_of_ne fun hnil => hne ?_)⟩
    exact pushLiteral_takeWhile_of_nil hnil

theorem pieces_isEmpty (h : pieces .path c t = .ok u c') (hu : u.isEmpty = true) :
    t.isEmpty = true ∧ (c.rest.head? ≠ some ' ' → c'.rest.head? ≠ some ' ' ∧
      c'.rest.head? ≠ some '#') := by
  generalize hmode : ValueMode.path = mode at h
  fun_induction Cursor.pieces mode c t with
  | case1 c t t₁ c₁ v hfront t₂ c₂ hescape ih =>
    obtain ⟨ht₂, hnext⟩ := ih h
    obtain ⟨ht₁, hspace⟩ := escape_isEmpty hescape ht₂
    exact ⟨(Template.isEmpty_pushLiteral.mp ht₁).1, fun _ => hnext hspace⟩
  | case2 => cases h
  | case3 c t t₁ c₁ _ hfront =>
    subst hmode
    obtain ⟨hu', hc'⟩ : t₁ = u ∧ c₁ = c' := by simpa using h
    rw [← hu'] at hu
    obtain ⟨ht, hnil⟩ := Template.isEmpty_pushLiteral.mp hu
    replace hnil : c.rest.takeWhile ValueMode.path.isPlain = [] := by simpa using hnil
    have hrest : c₁.rest = c.rest := rest_skipWhile_of_nil hnil
    rw [← hc', hrest]
    refine ⟨ht, fun hspace => ⟨hspace, fun hcomment => ?_⟩⟩
    -- In a path a `#` stands for itself.
    obtain ⟨v, hv⟩ := List.head?_eq_some_iff.mp hcomment
    simp [hv, ValueMode.isPlain, isLineEnd] at hnil
  | case4 c t t₁ c₁ hline => cases hmode.trans hline

theorem length_value_le (h : c.value mode = .ok u c') : c'.rest.length ≤ c.rest.length :=
  Nat.le_trans (length_pieces h).1 (length_skipWhile_le isSpace c)

theorem length_value_lt (h : c.value mode = .ok u c') (hu : u.isEmpty = false) :
    c'.rest.length < c.rest.length := by
  refine Nat.lt_of_lt_of_le ((length_pieces h).2 ?_) (length_skipWhile_le isSpace c)
  rintro rfl
  cases hu

/-- An empty path is not followed by a comment. -/
theorem noComment_of_isEmpty (h : c.value .path = .ok u c') (hu : u.isEmpty = true) :
    NoComment c' := by
  obtain ⟨-, hfront⟩ := pieces_isEmpty h hu
  obtain ⟨hspace, hcomment⟩ := hfront fun hspace => by cases eq_false_of_head?_dropWhile hspace
  cases hc' : c'.rest with
  | nil => simp [NoComment, hc']
  | cons ch v =>
    rw [hc'] at hspace hcomment
    have hch : isSpace ch = false := by simpa [isSpace] using hspace
    rwa [NoComment, hc', List.dropWhile_cons, hch]

end Cursor

end Rebuild
