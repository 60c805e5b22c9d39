import Rebuild.Proofs.Depfile.Records

/-!
# How records are written

A record names outputs and dependencies, its words set apart by single spaces. In a path a space and
`#` are escaped by a backslash and a dollar sign by another one; nothing else is escaped, since a
backslash or a colon inside of a word stands for itself. A record is read back as it was written.
-/

namespace Rebuild.Depfile

variable {text tail : List Char} {p : Progress}

/-- A path that a record can name: canonical, without characters that no escape brings back, and
with none at its end that would look at what comes after it. -/
structure RecordPath where
  text : String
  canonical : Path.canonical text = text
  plain : ∀ c ∈ text.toList, c ≠ '\t' ∧ c ≠ '\n' ∧ c ≠ '\r'
  closed : ∀ c ∈ text.toList.getLast?, c ≠ ':' ∧ c ≠ '\\'

/-- A character as it is written in a record. -/
def escapeChar (c : Char) : List Char :=
  if c = ' ' ∨ c = '#' then ['\\', c] else if c = '$' then ['$', '$'] else [c]

def escape (text : List Char) : List Char := text.flatMap escapeChar

/-- Paths in a row. -/
def spaced (paths : List RecordPath) : List Char :=
  [' '].intercalate (paths.map fun path => escape path.text.toList)

/-- A record, without a line end. -/
def record (outputs deps : List RecordPath) : List Char :=
  spaced outputs ++ ':' :: ' ' :: spaced deps

/-! ## One path -/

theorem escape_cons (c : Char) (text : List Char) :
    escape (c :: text) = escapeChar c ++ escape text := rfl

/-- A character that stands for itself does not look at what is escaped behind it, and not at what
comes after the path unless it is the last one. -/
theorem clear_escape {c : Char} (hdollar : c ≠ '$') (hreturn : c ≠ '\r')
    (hlast : text = [] → c ≠ ':' ∧ c ≠ '\\')
    (hplain : ∀ d ∈ text, d ≠ '\t' ∧ d ≠ '\n' ∧ d ≠ '\r') (tail : List Char) :
    Clear [c] (escape text ++ tail) := by
  cases text with
  | nil =>
    obtain ⟨hcolon, hback⟩ := hlast rfl
    cases tail with
    | nil => simpa [Clear, escape] using hcolon
    | cons next more => simp [Clear, escape, Apart, looksAt, hdollar, hreturn, hcolon, hback]
  | cons d text =>
    obtain ⟨hd, -⟩ := List.forall_mem_cons.mp hplain
    rw [escape_cons]
    unfold escapeChar
    split
    · simp [Clear, Apart, looksAt, endsWord]
    · split
      · simp [Clear, Apart, looksAt, endsWord, hdollar]
      · next hblank _ =>
        rw [not_or] at hblank
        simp [Clear, Apart, looksAt, endsWord, hdollar, hblank, hd]

/-- A path that was escaped is read up to its end. -/
theorem readWord_escape (hplain : ∀ c ∈ text, c ≠ '\t' ∧ c ≠ '\n' ∧ c ≠ '\r')
    (hclosed : ∀ c ∈ text.getLast?, c ≠ ':' ∧ c ≠ '\\') (tail : List Char) :
    readWord (escape text ++ tail) = prepend text (readWord tail) := by
  induction text with
  | nil => rfl
  | cons c text ih =>
    obtain ⟨hc, hrest⟩ := List.forall_mem_cons.mp hplain
    have hread : readWord (escape text ++ tail) = prepend text (readWord tail) := by
      refine ih hrest fun d hd => ?_
      cases text with
      | nil => cases hd
      | cons e text => exact hclosed d (by rwa [List.getLast?_cons_cons])
    have hstep : readWord (escape (c :: text) ++ tail) =
        consChar c (readWord (escape text ++ tail)) := by
      rw [escape_cons]
      unfold escapeChar
      split
      · next hblank => rcases hblank with rfl | rfl <;> rfl
      · split
        · next hdollar => subst hdollar; rfl
        · next hblank hdollar =>
          rw [not_or] at hblank
          have hlast : text = [] → c ≠ ':' ∧ c ≠ '\\' := by
            rintro rfl
            exact hclosed c rfl
          exact readWord_cons ⟨hblank.1, hc.1⟩ hc.2.1
            (clear_escape hdollar hc.2.2 hlast hrest tail)
    rw [hstep, hread]
    rfl

theorem RecordPath.words_append (path : RecordPath) (tail : List Char) :
    words (escape path.text.toList ++ tail) = prependFirst path.text.toList (words tail) :=
  words_of_prepend (readWord_escape path.plain path.closed tail)

/-! ## Paths in a row -/

/-- A word that begins with further text adds that text first. -/
theorem foldlM_prependFirst (front : List Char) {ending : WordEnd} {more : List Word}
    (h : words tail = ⟨[], ending⟩ :: more) (p : Progress) :
    (prependFirst front (words tail)).foldlM addWord p =
      (words tail).foldlM addWord (addText p front) := by
  have hword : addWord p ⟨front, ending⟩ = addWord (addText p front) ⟨[], ending⟩ := by
    unfold addWord
    have hnone : addText (addText p front) [] = addText p front := rfl
    dsimp only
    rw [hnone]
  rw [h, prependFirst, List.append_nil, List.foldlM_cons, List.foldlM_cons, hword]

/-- Reading with paths added. -/
def addPaths (p : Progress) (paths : List RecordPath) : Progress :=
  paths.foldl (fun p path => addText p path.text.toList) p

/-- Paths in a row are added one after the other, if a word ends behind them. -/
theorem foldlM_spaced {ending : WordEnd} {more : List Word} (h : words tail = ⟨[], ending⟩ :: more)
    (paths : List RecordPath) (p : Progress) :
    (words (spaced paths ++ tail)).foldlM addWord p =
      (words tail).foldlM addWord (addPaths p paths) := by
  induction paths generalizing p with
  | nil => rfl
  | cons path paths ih =>
    cases paths with
    | nil =>
      have hone : spaced [path] = escape path.text.toList := by simp [spaced, List.intercalate]
      rw [hone, path.words_append, foldlM_prependFirst _ h]
      rfl
    | cons next paths =>
      have hcons : spaced (path :: next :: paths) ++ tail =
          escape path.text.toList ++ ' ' :: (spaced (next :: paths) ++ tail) := by
        simp [spaced, List.intercalate_cons_cons]
      have hblank : words (' ' :: (spaced (next :: paths) ++ tail)) =
          ⟨[], .blank⟩ :: words (spaced (next :: paths) ++ tail) := words_of_eq rfl (by simp)
      rw [hcons, path.words_append, foldlM_prependFirst _ hblank, hblank]
      exact ih (addText p path.text.toList)

theorem addText_path (path : RecordPath) (p : Progress) : addText p path.text.toList =
    if p.inOutputs then
      { p with depfile.outputs := addPath p.depfile.outputs path.text, hasOutputs := true }
    else { p with depfile.deps := addPath p.depfile.deps path.text } := by
  have hne : path.text.toList.isEmpty = false := by
    rw [List.isEmpty_eq_false_iff]
    exact fun h => Path.ne_empty_of_canonical path.canonical (String.toList_eq_nil_iff.mp h)
  rw [addText, hne, String.ofList_toList, path.canonical]
  rfl

/-- Adding paths one after the other drops those that were there before. -/
theorem foldl_addPath (paths : List String) : paths.foldl addPath [] = paths.eraseDups := by
  induction paths using List.reverseRecOn with
  | nil => rfl
  | append_singleton paths path ih =>
    rw [List.foldl_concat, ih, List.eraseDups_append, addPath]
    by_cases h : path ∈ paths
    · rw [if_pos (List.contains_iff_mem.mpr (List.mem_eraseDups.mpr h))]
      simp [List.removeAll, h]
    · rw [if_neg fun hc => h (List.mem_eraseDups.mp (List.contains_iff_mem.mp hc))]
      simp [List.removeAll, h, List.eraseDups_cons]

/-- In front of the colon paths are outputs. -/
theorem addPaths_outputs (d : Depfile) (begun : Bool) (paths : List RecordPath) :
    ∃ begun', addPaths ⟨d, true, begun⟩ paths =
      ⟨⟨(paths.map (·.text)).foldl addPath d.outputs, d.deps⟩, true, begun'⟩ := by
  induction paths generalizing d begun with
  | nil => exact ⟨begun, rfl⟩
  | cons path paths ih =>
    rw [addPaths, List.foldl_cons, addText_path]
    exact ih ..

/-- Behind the colon they are dependencies. -/
theorem addPaths_deps (d : Depfile) (begun : Bool) (paths : List RecordPath) :
    addPaths ⟨d, false, begun⟩ paths =
      ⟨⟨d.outputs, (paths.map (·.text)).foldl addPath d.deps⟩, false, begun⟩ := by
  induction paths generalizing d with
  | nil => rfl
  | cons path paths ih =>
    rw [addPaths, List.foldl_cons, addText_path]
    exact ih ..

/-! ## Records -/

/-- A record is read up to its end, which may be the end of the text or of a line. -/
theorem foldlM_record (outputs deps : List RecordPath) {ending : WordEnd} {more : List Word}
    (h : words tail = ⟨[], ending⟩ :: more) : ∃ begun,
      (words (record outputs deps ++ tail)).foldlM addWord (between ⟨[], []⟩) =
        (words tail).foldlM addWord ⟨⟨(outputs.map (·.text)).eraseDups,
          (deps.map (·.text)).eraseDups⟩, false, begun⟩ := by
  have hcolon : words (':' :: ' ' :: (spaced deps ++ tail)) =
      ⟨[], .colon⟩ :: ⟨[], .blank⟩ :: words (spaced deps ++ tail) := by
    rw [words_colon (by simp [endsWord])]
    exact congrArg _ (words_of_eq rfl (by simp))
  obtain ⟨begun, houtputs⟩ := addPaths_outputs ⟨[], []⟩ false outputs
  refine ⟨begun, ?_⟩
  rw [record, List.append_assoc, List.cons_append, List.cons_append, foldlM_spaced hcolon, between,
    houtputs, hcolon]
  change (words (spaced deps ++ tail)).foldlM addWord
    ⟨⟨(outputs.map (·.text)).foldl addPath [], []⟩, false, begun⟩ = _
  rw [foldlM_spaced h, addPaths_deps, foldl_addPath, foldl_addPath]

/-- A record is read back, alone or as a line: its outputs and dependencies in order, each of them
where it is named first. -/
theorem record_reads_back (outputs deps : List RecordPath) :
    parse? (record outputs deps) =
        some ⟨(outputs.map (·.text)).eraseDups, (deps.map (·.text)).eraseDups⟩ ∧
      parse? (record outputs deps ++ ['\n']) =
        some ⟨(outputs.map (·.text)).eraseDups, (deps.map (·.text)).eraseDups⟩ := by
  constructor
  · obtain ⟨begun, hread⟩ := foldlM_record outputs deps words_nil
    rw [List.append_nil] at hread
    rw [parse?_eq, hread, words_nil]
    rfl
  · have hline : words ['\n'] = [⟨[], .newline⟩, ⟨[], .eof⟩] := by
      rw [← words_nil]
      exact words_of_eq rfl (by simp)
    obtain ⟨begun, hread⟩ := foldlM_record outputs deps hline
    rw [parse?_eq, hread, hline]
    rfl

/-- A backslash that is escaped by nothing stands before a space that is. -/
example : record [⟨"out 1", by cbv, by simp, by simp⟩]
    [⟨"c:/x\\ #1", by cbv, by simp, by simp⟩, ⟨"$é$: y", by cbv, by simp, by simp⟩] =
      "out\\ 1: c:/x\\\\ \\#1 $$é$$:\\ y".toList := by
  decide

end Rebuild.Depfile
