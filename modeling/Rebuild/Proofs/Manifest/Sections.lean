import Rebuild.Proofs.Manifest.Reading

/-!
# The first line of a build statement, read back

A list of paths goes as far as the next separator, colon or line end, over the gap in front of it.
So what matters about the rest of a line is where a list in front of it stops, and which token is
there: that of the next section that was not left out.
-/

namespace Rebuild.Manifest

open Sequence (Succeeds)

variable {next stop tail rest : List Char} {kind : TokenKind}

/-! ## Lists of paths -/

theorem PlainPath.front (path : PlainPath) (text : List Char) :
    ∀ ch ∈ (escapePath path.text.toList ++ text).head?, isSpaceOrTab ch = false := by
  obtain ⟨path, hne, -, hplain⟩ := path
  obtain ⟨ch, more, hpath⟩ := List.exists_cons_of_ne_nil (mt String.toList_eq_nil_iff.mp hne)
  have htab := (hplain ch (hpath ▸ List.mem_cons_self)).1
  dsimp only
  rw [hpath]
  by_cases hch : isEscaped ch = true
  · simp [escapePath, escapeChar, hch, isSpaceOrTab]
  · have hspace : ch ≠ ' ' := by rintro rfl; exact hch rfl
    simp [escapePath, escapeChar, hch, isSpaceOrTab, hspace, htab]

theorem Gap.text_eq (gap : Gap) : gap.text = ' ' :: (spaces gap.more ++ gap.lines.text) := rfl

theorem gapText_eq (gap : Option Gap) :
    ∃ n, ∃ lines : Continuations, gapText gap = spaces n ++ lines.text := by
  cases gap with
  | none => exact ⟨0, ⟨[], by simp⟩, rfl⟩
  | some gap => exact ⟨gap.more + 1, gap.lines, rfl⟩

theorem Entries.text_cons (gap : Gap) (path : PlainPath) (entries : Entries) :
    Entries.text ((gap, path) :: entries) =
      spaces (gap.more + 1) ++ (gap.lines.text ++
        (escapePath path.text.toList ++ Entries.text entries)) := by
  simp [Entries.text, Gap.text]

theorem Entries.length_le (entries : Entries) : entries.length ≤ entries.text.length := by
  induction entries with
  | nil => exact Nat.le_refl _
  | cons entry entries ih =>
    obtain ⟨gap, path⟩ := entry
    simp only [Entries.text_cons, spaces, List.length_append, List.length_replicate,
      List.length_cons]
    omega

/-- A list of paths that `next` comes after ends at `stop`, where a token of the kind is. -/
structure Closes (next stop : List Char) (kind : TokenKind) : Prop where
  gap : ∃ gap, next = gapText gap ++ stop ∧ (gap = none → stop.head? ≠ some '|')
  front : ∀ ch ∈ stop.head?, ch = ':' ∨ ch = '|' ∨ isLineEnd ch = true
  shows : ∀ c : Cursor, c.At stop → ∃ token d, c.nextToken = .ok token d ∧ token.kind = kind

namespace Closes

/-- No bar comes right after a path or another separator. -/
theorem front_of_entries (h : Closes next stop kind) (entries : Entries) :
    ∀ ch ∈ (entries.text ++ next).head?, ch = ' ' ∨ ch = ':' ∨ isLineEnd ch = true := by
  cases entries with
  | cons entry entries =>
    obtain ⟨gap, path⟩ := entry
    simp [Entries.text_cons, spaces, List.replicate_succ]
  | nil =>
    obtain ⟨gap, rfl, hbar⟩ := h.gap
    cases gap with
    | some gap => simp [Entries.text, gapText, Gap.text_eq]
    | none =>
      intro ch hch
      obtain hcolon | rfl | hend := h.front ch hch
      · exact .inr (.inl hcolon)
      · exact absurd hch (hbar rfl)
      · exact .inr (.inr hend)

theorem endsPath (h : Closes next stop kind) (entries : Entries) :
    Cursor.EndsPath (entries.text ++ next) := by
  intro ch hch
  obtain hspace | hcolon | hend := h.front_of_entries entries ch hch
  · exact .inl hspace
  · exact .inr (.inl hcolon)
  · exact .inr (.inr (.inr hend))

end Closes

/-- Paths were read as they were meant, wherever they are written. -/
def Spells (written : List WrittenPath) (paths : List String) : Prop :=
  written.map (·.template) = paths.map Template.literal

/-- Paths are read one after the other, and then nothing is left but the gap in front of the
stop. -/
theorem Closes.succeeds_pathsUpTo (h : Closes next stop kind) (entries : Entries) {n : Nat}
    (hn : entries.length < n) :
    Succeeds (Lexer.At (entries.text ++ next)) (pathsUpTo n) fun written l =>
      Spells written entries.paths ∧ l.At stop := by
  induction entries generalizing n with
  | nil =>
    obtain ⟨n, rfl⟩ : ∃ k, n = k + 1 := ⟨n - 1, by omega⟩
    obtain ⟨gap, rfl, -⟩ := h.gap
    obtain ⟨spaces, lines, hgap⟩ := gapText_eq gap
    have hfront : ∀ ch ∈ (escapePath [] ++ stop).head?, isSpaceOrTab ch = false := by
      intro ch hch
      obtain rfl | rfl | hend := h.front ch hch
      · rfl
      · rfl
      · exact Bool.eq_false_iff.mpr fun hblank => by
          simp [(plain_isSpaceOrTab false ch hblank).1] at hend
    rw [hgap, Entries.text, List.flatMap_nil, List.nil_append, List.append_assoc]
    refine (Lexer.succeeds_skipSpaces (Cursor.front_of_continuations lines hfront)).bind fun _ => ?_
    refine Lexer.succeeds_location.bind fun place => ?_
    refine (Lexer.succeeds_value [] (by simp) hfront ?_).bind fun path => ?_
    · exact fun ch hch => .inr (h.front ch hch)
    refine .given fun hpath => ?_
    subst hpath
    exact .pure fun _ hl => ⟨rfl, hl⟩
  | cons entry entries ih =>
    obtain ⟨n, rfl⟩ : ∃ k, n = k + 1 := ⟨n - 1, by omega⟩
    obtain ⟨gap, path⟩ := entry
    have hfront := path.front (Entries.text entries ++ next)
    simp only [Entries.text_cons, List.append_assoc]
    refine (Lexer.succeeds_skipSpaces (Cursor.front_of_continuations gap.lines hfront)).bind
      fun _ => ?_
    refine Lexer.succeeds_location.bind fun place => ?_
    refine (Lexer.succeeds_value _ path.plain hfront (h.endsPath entries)).bind fun template => ?_
    refine .given fun htemplate => ?_
    have hempty : template.isEmpty = false := by
      rw [htemplate, String.ofList_toList, Template.literal, Bool.eq_false_iff]
      exact fun hempty => path.ne_empty (Template.isEmpty_pushLiteral.mp hempty).2
    rw [if_neg (by simp [hempty])]
    refine (ih (Nat.lt_of_succ_lt_succ hn)).bind fun written => .given fun hwritten => ?_
    refine .pure fun _ hl => ⟨?_, hl⟩
    rw [htemplate, String.ofList_toList]
    exact congrArg (Template.literal path.text :: ·) hwritten

theorem Closes.succeeds_paths (h : Closes next stop kind) (entries : Entries) :
    Succeeds (Lexer.At (entries.text ++ next)) paths fun written l =>
      Spells written entries.paths ∧ l.At stop := by
  intro l hl
  refine h.succeeds_pathsUpTo entries ?_ hl
  have hlength := entries.length_le
  rw [hl.rest, List.length_append]
  omega

/-! ## Sections -/

/-- Where a list of paths in front of a section stops. -/
def Section.stopsAt (separator : Separator) (next stop : List Char) : Section → List Char
  | none => stop
  | some (_, entries) => separator.text ++ (entries.text ++ next)

/-- The token there. -/
def Section.shows (separator : Separator) (kind : TokenKind) : Section → TokenKind
  | none => kind
  | some _ => separator.kind

theorem Section.shows_ne {separator : Separator} {other : TokenKind} (sec : Section)
    (hkind : kind ≠ other) (hseparator : separator.kind ≠ other) :
    sec.shows separator kind ≠ other := by
  cases sec with
  | none => exact hkind
  | some _ => exact hseparator

namespace Closes

theorem nextToken (h : Closes next stop kind) (separator : Separator) (entries : Entries)
    (c : Cursor) (hc : c.At (separator.text ++ (entries.text ++ next))) :
    ∃ token d, c.nextToken = .ok token d ∧ token.kind = separator.kind ∧
      d.At (entries.text ++ next) := by
  have hfront {ch : Char} (hch : (entries.text ++ next).head? = some ch) :
      ch = ' ' ∨ ch = ':' ∨ isLineEnd ch = true := h.front_of_entries entries ch hch
  refine hc.nextToken_separator (fun hbar => ?_) fun hat => ?_
  · simpa [isLineEnd] using hfront hbar
  · simpa [isLineEnd] using hfront hat

/-- A section in front of what closes a list closes one as well. -/
theorem before (h : Closes next stop kind) (separator : Separator) (sec : Section) :
    Closes (sec.text separator ++ next) (sec.stopsAt separator next stop)
      (sec.shows separator kind) := by
  cases sec with
  | none => exact h
  | some sec =>
    obtain ⟨gap, entries⟩ := sec
    refine ⟨⟨some gap, by simp [Section.text, Section.stopsAt, gapText], nofun⟩, ?_, fun c hc => ?_⟩
    · cases separator <;> simp [Section.stopsAt, Separator.text]
    · obtain ⟨token, d, htoken, hkind, -⟩ := h.nextToken separator entries c hc
      exact ⟨token, d, htoken, hkind⟩

/-- A section is read if it is there, and nothing is read if it was left out. -/
theorem succeeds_pathsAfter (h : Closes next stop kind) (separator : Separator)
    (hkind : kind ≠ separator.kind) (sec : Section) :
    Succeeds (Lexer.At (sec.stopsAt separator next stop)) (pathsAfter separator.kind)
      fun written l => Spells written sec.paths ∧ l.At stop := by
  cases sec with
  | none =>
    refine (Lexer.succeeds_peek_other hkind h.shows).bind fun token => .given ?_
    rintro rfl
    exact .pure fun _ hl => ⟨rfl, hl⟩
  | some sec =>
    obtain ⟨gap, entries⟩ := sec
    refine (Lexer.succeeds_peek (h.nextToken separator entries)).bind fun token => .given ?_
    intro htoken
    obtain ⟨token, rfl⟩ := Option.isSome_iff_exists.mp htoken
    exact h.succeeds_paths entries

end Closes

theorem closes_colon (gap : Option Gap) (text : List Char) :
    Closes (gapText gap ++ ':' :: text) (':' :: text) .colon where
  gap := ⟨gap, rfl, fun _ => by simp⟩
  front := by simp
  shows c hc := by
    obtain ⟨token, d, htoken, hkind, -⟩ := hc.nextToken_colon
    exact ⟨token, d, htoken, hkind⟩

theorem closes_lineEnd (gap : Option Gap) (hend : Cursor.EndsWith tail rest) :
    Closes (gapText gap ++ tail) tail (Cursor.endKind tail) := by
  have hfront : ∀ ch ∈ tail.head?, isLineEnd ch = true := by
    obtain hend | ⟨rfl, -⟩ := hend
    · obtain ⟨ch, v, -, rfl, -, hch⟩ := hend.front
      simpa using hch
    · simp
  refine ⟨⟨gap, rfl, fun _ hbar => ?_⟩, fun ch hch => .inr (.inr (hfront ch hch)), fun c hc => ?_⟩
  · simpa [isLineEnd] using hfront '|' hbar
  · obtain ⟨token, d, htoken, hkind, -⟩ := hc.nextToken_lineEnd hend
    exact ⟨token, d, htoken, hkind⟩

/-! ## The line -/

/-- A line was read as it was meant. -/
structure ReadsLine (line : WrittenBuild) (read : BuildLine) : Prop where
  explicitOuts : Spells read.explicitOuts line.explicitOuts.paths
  implicitOuts : Spells read.implicitOuts line.implicitOuts.paths
  ruleName : read.ruleName = line.ruleName
  explicitIns : Spells read.explicitIns line.explicitIns.paths
  implicitIns : Spells read.implicitIns line.implicitIns.paths
  orderOnlyIns : Spells read.orderOnlyIns line.orderOnlyIns.paths
  validations : Spells read.validations line.validations.paths

theorem Spells.isEmpty_eq {written : List WrittenPath} {paths : List String}
    (h : Spells written paths) : written.isEmpty = paths.isEmpty := by
  simpa using congrArg List.isEmpty h

theorem succeeds_buildLine {line : WrittenBuild} (hrule : IsWord line.ruleName)
    (hend : Cursor.EndsWith tail rest) :
    Succeeds (Lexer.At (line.body ++ tail)) buildLine fun read l =>
      ReadsLine line read ∧ l.Between rest := by
  -- what closes each list, from the end of the line to its beginning
  have hend₀ := closes_lineEnd line.endGap hend
  have hend₁ := hend₀.before .pipeAt line.validations
  have hend₂ := hend₁.before .pipe2 line.orderOnlyIns
  have hend₃ := hend₂.before .pipe line.implicitIns
  have hcolon₀ := closes_colon line.colonGap (spaces (line.ruleSpaces + 1) ++
    (line.ruleName.toList ++ (line.insText ++ tail)))
  have hcolon₁ := hcolon₀.before .pipe line.implicitOuts
  have hkind : Cursor.endKind tail = .newline ∨ Cursor.endKind tail = .eof := Cursor.endKind_eq tail
  have hkind₀ (separator : Separator) : Cursor.endKind tail ≠ separator.kind := by
    cases separator <;> obtain h | h := hkind <;> simp [h, Separator.kind]
  have hkind₁ : line.validations.shows .pipeAt (Cursor.endKind tail) ≠ Separator.pipe2.kind :=
    Section.shows_ne line.validations (hkind₀ .pipe2) (by decide)
  have hkind₂ : line.orderOnlyIns.shows .pipe2 (line.validations.shows .pipeAt
      (Cursor.endKind tail)) ≠ Separator.pipe.kind :=
    Section.shows_ne line.orderOnlyIns
      (Section.shows_ne line.validations (hkind₀ .pipe) (by decide)) (by decide)
  have hins : line.insText ++ tail = line.explicitIns.text ++ (line.implicitIns.text .pipe ++
      (line.orderOnlyIns.text .pipe2 ++ (line.validations.text .pipeAt ++
        (gapText line.endGap ++ tail)))) := by
    simp [WrittenBuild.insText]
  have houts : line.body ++ tail = line.explicitOuts.text ++ (line.implicitOuts.text .pipe ++
      (gapText line.colonGap ++ ':' :: (spaces (line.ruleSpaces + 1) ++
        (line.ruleName.toList ++ (line.insText ++ tail))))) := by
    simp [WrittenBuild.body, WrittenBuild.outsText]
  rw [houts]
  refine (hcolon₁.succeeds_paths line.explicitOuts).bind fun explicitOuts => .given fun houts => ?_
  have hempty : explicitOuts.isEmpty = false := by
    rw [houts.isEmpty_eq]
    simpa [Entries.paths] using line.ne_nil
  rw [if_neg (by simp [hempty])]
  refine (hcolon₀.succeeds_pathsAfter .pipe nofun line.implicitOuts).bind
    fun implicitOuts => .given fun himplicitOuts => ?_
  refine (Lexer.succeeds_expect fun _ hc => hc.nextToken_colon).bind fun _ => ?_
  refine (Lexer.succeeds_skipSpaces ?_).bind fun _ => ?_
  · exact Lexer.front_of_name hrule _
  refine Lexer.succeeds_location.bind fun place => ?_
  refine (Lexer.succeeds_ident hrule fun ch hch => ?_).bind fun name => .given fun hname => ?_
  · rw [hins] at hch
    refine Bool.eq_false_iff.mpr fun hident => ?_
    obtain rfl | rfl | hch := hend₃.front_of_entries line.explicitIns ch hch
    · exact absurd hident (by decide)
    · exact absurd hident (by decide)
    · simp [(plain_isIdentChar false ch hident).1] at hch
  rw [hins]
  refine (hend₃.succeeds_paths line.explicitIns).bind
    fun explicitIns => .given fun hexplicitIns => ?_
  refine (hend₂.succeeds_pathsAfter .pipe hkind₂ line.implicitIns).bind
    fun implicitIns => .given fun himplicitIns => ?_
  refine (hend₁.succeeds_pathsAfter .pipe2 hkind₁ line.orderOnlyIns).bind
    fun orderOnlyIns => .given fun horderOnlyIns => ?_
  refine (hend₀.succeeds_pathsAfter .pipeAt (hkind₀ .pipeAt) line.validations).bind
    fun validations => .given fun hvalidations => ?_
  refine (Lexer.succeeds_lineEnd hend).bind fun _ => .pure fun _ hl => ⟨?_, hl⟩
  exact ⟨houts, himplicitOuts, hname, hexplicitIns, himplicitIns, horderOnlyIns, hvalidations⟩

end Rebuild.Manifest
