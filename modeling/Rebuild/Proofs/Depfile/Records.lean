import Mathlib
import Rebuild.Proofs.Depfile.Words
import Rebuild.Proofs.Path

/-!
# Records of dependency files

A line end puts reading back to where it began: what comes after it is read as if nothing stood
before, and adds the paths that are new. So a dependency file may be cut at any line end that is not
part of a line that goes on. All paths that are read are canonical, and none is named twice.
-/

namespace Rebuild.Depfile

variable {text : List Char} {d : Depfile} {p q : Progress} {ws : List Word}

/-- Paths are listed by their canonical spelling, and once. -/
structure Tidy (d : Depfile) : Prop where
  outputs_nodup : d.outputs.Nodup
  deps_nodup : d.deps.Nodup
  outputs_canonical : ∀ path ∈ d.outputs, Path.canonical path = path
  deps_canonical : ∀ path ∈ d.deps, Path.canonical path = path

/-- Paths, and further ones as far as they are new. -/
def extended (paths more : List String) : List String :=
  paths ++ more.filter (· ∉ paths)

/-- The paths of two dependency files, those of the second one as far as they are new. -/
def followedBy (d more : Depfile) : Depfile :=
  ⟨extended d.outputs more.outputs, extended d.deps more.deps⟩

/-- Reading that is about to begin a record. -/
def between (d : Depfile) : Progress := ⟨d, true, false⟩

/-- Reading that has other paths already. -/
def Progress.after (d : Depfile) (p : Progress) : Progress :=
  { p with depfile := d.followedBy p.depfile }

theorem parse?_eq (text : List Char) :
    parse? text = ((words text).foldlM addWord (between ⟨[], []⟩)).map (·.depfile) := rfl

/-! ## Paths that are read are tidy -/

theorem nodup_addPath {paths : List String} (h : paths.Nodup) (path : String) :
    (addPath paths path).Nodup := by
  unfold addPath
  split
  · exact h
  · next hnew =>
    rw [List.contains_iff_mem] at hnew
    refine List.nodup_append.mpr ⟨h, List.nodup_singleton path, ?_⟩
    rintro other hother _ hpath rfl
    exact hnew (List.mem_singleton.mp hpath ▸ hother)

theorem mem_addPath {paths : List String} {path other : String} :
    other ∈ addPath paths path ↔ other ∈ paths ∨ other = path := by
  unfold addPath
  split
  · next hold =>
    rw [List.contains_iff_mem] at hold
    exact ⟨.inl, fun h => h.elim id fun heq => heq ▸ hold⟩
  · simp

theorem Tidy.addText (h : p.depfile.Tidy) (text : List Char) : (addText p text).depfile.Tidy := by
  unfold Depfile.addText
  split
  · exact h
  dsimp only
  have hcanonical : ∀ {paths : List String}, (∀ path ∈ paths, Path.canonical path = path) →
      ∀ path ∈ addPath paths (Path.canonical (String.ofList text)), Path.canonical path = path := by
    intro paths hpaths path hpath
    rcases mem_addPath.mp hpath with hpath | rfl
    · exact hpaths path hpath
    · exact Path.canonical_canonical _
  split
  · exact ⟨nodup_addPath h.outputs_nodup _, h.deps_nodup, hcanonical h.outputs_canonical,
      h.deps_canonical⟩
  · exact ⟨h.outputs_nodup, nodup_addPath h.deps_nodup _, h.outputs_canonical,
      hcanonical h.deps_canonical⟩

/-- Adding a word adds its text and changes what is being read. -/
theorem depfile_addWord {word : Word} (h : addWord p word = some q) :
    q.depfile = (addText p word.text).depfile := by
  unfold addWord at h
  dsimp only at h
  split at h
  · cases h; rfl
  · cases h; rfl
  all_goals
    split at h
    · cases h
    · cases h; rfl

theorem Tidy.foldlM (h : p.depfile.Tidy) (hread : ws.foldlM addWord p = some q) :
    q.depfile.Tidy := by
  induction ws generalizing p with
  | nil => cases hread; exact h
  | cons word ws ih =>
    rw [List.foldlM_cons, Option.bind_eq_bind, Option.bind_eq_some_iff] at hread
    obtain ⟨p', hword, hrest⟩ := hread
    exact ih (depfile_addWord hword ▸ h.addText word.text) hrest

theorem tidy_of_parse? (h : parse? text = some d) : d.Tidy := by
  obtain ⟨p, hread, rfl⟩ := Option.map_eq_some_iff.mp h
  exact Tidy.foldlM (p := between ⟨[], []⟩) ⟨.nil, .nil, by simp [between], by simp [between]⟩ hread

/-! ## What was read before makes no difference -/

theorem addPath_extended (paths more : List String) (path : String) :
    addPath (extended paths more) path = extended paths (addPath more path) := by
  unfold addPath extended
  by_cases hold : path ∈ paths
  · by_cases hmore : path ∈ more <;> simp [hold, hmore]
  · by_cases hmore : path ∈ more <;> simp [hold, hmore]

theorem addText_after (d : Depfile) (p : Progress) (text : List Char) :
    addText (p.after d) text = (addText p text).after d := by
  unfold addText
  split
  · rfl
  · cases hout : p.inOutputs <;> simp [Progress.after, followedBy, hout, addPath_extended]

theorem addWord_after (d : Depfile) (p : Progress) (word : Word) :
    addWord (p.after d) word = (addWord p word).map (·.after d) := by
  unfold addWord
  rw [addText_after]
  dsimp only
  split
  · rfl
  · rfl
  all_goals
    by_cases hopen : (addText p word.text).inOutputs && (addText p word.text).hasOutputs
    · rw [if_pos hopen]; exact if_pos hopen
    · rw [if_neg hopen]; exact if_neg hopen

theorem foldlM_after (d : Depfile) (p : Progress) (ws : List Word) :
    ws.foldlM addWord (p.after d) = (ws.foldlM addWord p).map (·.after d) := by
  induction ws generalizing p with
  | nil => rfl
  | cons word ws ih =>
    rw [List.foldlM_cons, List.foldlM_cons, addWord_after]
    cases addWord p word with
    | none => rfl
    | some p' => exact ih p'

/-! ## Line ends -/

/-- A word that ends a record leaves nothing but paths behind. -/
theorem addWord_newline {last : List Char} (h : addWord p ⟨last, .newline⟩ = some q) :
    q = between q.depfile := by
  unfold addWord at h
  dsimp only at h
  split at h
  · cases h
  · cases h
    rfl

/-- The last word of a text ends a record as well if a line end comes after the text. -/
theorem words_line (hback : text.getLast? ≠ some '\\') (hreturn : text.getLast? ≠ some '\r') :
    ∃ before last, words text = before ++ [⟨last, .eof⟩] ∧
      ∀ more, words (text ++ '\n' :: more) = before ++ ⟨last, .newline⟩ :: words more := by
  have hline : ∀ more, words ('\n' :: more) = ⟨[], .newline⟩ :: words more := fun _ =>
    words_of_eq rfl (by simp)
  by_cases hcolon : text.getLast? = some ':'
  · obtain ⟨front, rfl⟩ := List.getLast?_eq_some_iff.mp hcolon
    obtain ⟨before, last, hread⟩ := words_append front
    refine ⟨before ++ [⟨last, .colon⟩], [], ?_, fun more => ?_⟩
    · have hend : words [':'] = [⟨[], .colon⟩, ⟨[], .eof⟩] := by
        rw [← words_nil]
        exact words_of_eq rfl (by simp)
      rw [hread ':' [] (apart_colon front), hend]
      simp [prependFirst]
    · rw [List.append_assoc, List.singleton_append, hread ':' _ (apart_colon front),
        words_colon (by simp [endsWord]), hline]
      simp [prependFirst]
  · obtain ⟨before, last, hread⟩ := words_split text
    have hapart : Apart text '\n' := by
      intro c hc
      have hlast : text.getLast? = some c := hc
      have hne : ∀ d, text.getLast? ≠ some d → c ≠ d := fun d hd heq => hd (heq ▸ hlast)
      simp [looksAt, hne _ hback, hne _ hreturn, hne _ hcolon]
    refine ⟨before, last, ?_, fun more => ?_⟩
    · have hend := hread [] hcolon
      rwa [List.append_nil, words_nil, prependFirst, List.append_nil] at hend
    · rw [hread ('\n' :: more) hapart, hline, prependFirst, List.append_nil]

/-- What comes after a line end is read as if nothing stood before. -/
theorem foldlM_between (d : Depfile) (ws : List Word) :
    ws.foldlM addWord (between d) = (ws.foldlM addWord (between ⟨[], []⟩)).map (·.after d) := by
  have hempty : (between ⟨[], []⟩).after d = between d := by
    simp [between, Progress.after, followedBy, extended]
  rw [← hempty, foldlM_after]

theorem parse?_line (hback : text.getLast? ≠ some '\\') (hreturn : text.getLast? ≠ some '\r')
    (more : List Char) :
    parse? (text ++ '\n' :: more) = (parse? text).bind fun d => (parse? more).map d.followedBy := by
  obtain ⟨before, last, htext, hmore⟩ := words_line hback hreturn
  rw [parse?_eq, parse?_eq, hmore, htext, List.foldlM_append, List.foldlM_append]
  cases before.foldlM addWord (between ⟨[], []⟩) with
  | none => rfl
  | some p =>
    -- the end of a text ends a record like a line end
    change ((addWord p ⟨last, .newline⟩).bind (List.foldlM addWord · (words more))).map _ =
      (((addWord p ⟨last, .newline⟩).bind some).map _).bind _
    cases hlast : addWord p ⟨last, .newline⟩ with
    | none => rfl
    | some q =>
      rw [Option.bind_some, Option.bind_some, addWord_newline hlast, foldlM_between, Option.map_map,
        parse?_eq, Option.map_some, Option.bind_some, Option.map_map]
      rfl

/-- Records do not depend on one another. A text that is cut at a line end is refused exactly if one
of its parts is, and otherwise it gives the paths of the first part and then those of the second one
that are new; a backslash or a carriage return before the line end would be part of it. Whatever is
read consists of canonical paths, none of them named twice. -/
theorem records_are_independent (text : List Char) :
    (∀ d, parse? text = some d → d.Tidy) ∧
    ∀ more, text.getLast? ≠ some '\\' → text.getLast? ≠ some '\r' →
      (parse? (text ++ '\n' :: more) = none ↔ parse? text = none ∨ parse? more = none) ∧
      ∀ d d', parse? text = some d → parse? more = some d' →
        parse? (text ++ '\n' :: more) = some (d.followedBy d') := by
  refine ⟨fun d hread => tidy_of_parse? hread, fun more hback hreturn => ?_⟩
  rw [parse?_line hback hreturn]
  constructor
  · cases parse? text <;> simp
  · intro d d' htext hmore
    rw [htext, hmore]
    rfl

/-- The second part begins after a colon without dependencies, and names an output and a dependency
again. -/
theorem records_are_independent_pair :
    parse? "a.o b.o: x/../a.c c:/h\nc.o:\nb.o d.o: ./a.c d.h".toList =
      some ⟨["a.o", "b.o", "c.o", "d.o"], ["a.c", "c:/h", "d.h"]⟩ := by
  have htext : parse? "a.o b.o: x/../a.c c:/h\nc.o:".toList =
      some ⟨["a.o", "b.o", "c.o"], ["a.c", "c:/h"]⟩ := by cbv
  have hmore : parse? "b.o d.o: ./a.c d.h".toList = some ⟨["b.o", "d.o"], ["a.c", "d.h"]⟩ := by cbv
  obtain ⟨-, hread⟩ := (records_are_independent "a.o b.o: x/../a.c c:/h\nc.o:".toList).2
    "b.o d.o: ./a.c d.h".toList (by decide) (by decide)
  exact hread _ _ htext hmore

end Rebuild.Depfile
