import Mathlib.Data.List.TakeWhile
import Rebuild.BuildLog
import Rebuild.Proofs.Text.Numeral
import Rebuild.Proofs.Text.Utf8

/-!
# Entries of a log file

A line that is written for an output is read as the entry that it was written for. Lines that are
added to a text which ends with a line end are read after those of the text; so a log whose file was
left whole has the entries from before and those that were added.
-/

namespace Rebuild

namespace Text

/-- Text that is read up to a line end is read on as if it began there. -/
theorem cutLines_append (line a b : List Char) : cutLines line (a ++ '\n' :: b) =
    cutLines line (a ++ ['\n']) ++ cutLines [] b := by
  induction a generalizing line with
  | nil => rfl
  | cons c a ih =>
    by_cases hc : c = '\n'
    · subst hc
      exact congrArg (dropCarriageReturn line :: ·) (ih [])
    · simp only [List.cons_append, cutLines, ih]

theorem lines_append {text : List Char} (h : text.getLast? = some '\n') (more : List Char) :
    lines (text ++ more) = lines text ++ lines more := by
  obtain ⟨a, rfl⟩ := List.getLast?_eq_some_iff.mp h
  rw [List.append_assoc]
  exact cutLines_append [] a more

theorem cutLines_of_not_mem {a : List Char} (h : '\n' ∉ a) (line b : List Char) :
    cutLines line (a ++ '\n' :: b) = dropCarriageReturn (line ++ a) :: cutLines [] b := by
  induction a generalizing line with
  | nil => rw [List.nil_append, List.append_nil, cutLines]
  | cons c a ih =>
    rw [List.mem_cons, not_or] at h
    rw [List.cons_append, cutLines, ih h.2, List.append_assoc, List.singleton_append]
    exact fun hc => h.1 hc.symm

/-- A last line that lacks its end is a line if it has characters. -/
theorem lines_of_not_mem {last : List Char} (h : '\n' ∉ last) :
    lines last = if last.isEmpty then [] else [last] := by
  have hread : ∀ line,
      cutLines line last = if (line ++ last).isEmpty then [] else [line ++ last] := by
    induction last with
    | nil => intro line; rw [List.append_nil, cutLines]
    | cons c last ih =>
      intro line
      rw [List.mem_cons, not_or] at h
      rw [cutLines, ih h.2, List.append_assoc, List.singleton_append]
      exact fun hc => h.1 hc.symm
  exact hread []

theorem lines_ne_nil {text : List Char} (h : text.getLast? = some '\n') : lines text ≠ [] := by
  obtain ⟨a, rfl⟩ := List.getLast?_eq_some_iff.mp h
  have hne : ∀ line, cutLines line (a ++ ['\n']) ≠ [] := by
    induction a with
    | nil => simp [cutLines]
    | cons c a ih =>
      intro line
      by_cases hc : c = '\n'
      · simp [cutLines, hc]
      · simpa [cutLines, hc] using ih (by simp) (line ++ [c])
  exact hne []

theorem dropCarriageReturn_of_ne {line : List Char} (h : line.getLast? ≠ some '\r') :
    dropCarriageReturn line = line := by
  unfold dropCarriageReturn
  split
  · next rest hrev => rw [← List.head?_reverse, hrev] at h; exact absurd rfl h
  · rfl

theorem dropCarriageReturn_sublist (line : List Char) :
    (dropCarriageReturn line).Sublist line := by
  unfold dropCarriageReturn
  split
  · next rest hrev =>
    rw [List.reverse_eq_cons_iff] at hrev
    exact hrev ▸ List.sublist_append_left _ _
  · exact .refl _

/-- Trimming leaves nothing of blanks, and of them only. -/
theorem trim_eq_nil_iff {text : List Char} : trim text = [] ↔ ∀ c ∈ text, isBlank c = true := by
  rw [trim, List.reverse_eq_nil_iff, List.dropWhile_eq_nil_iff]
  refine ⟨fun h c hc => ?_, fun h c hc => ?_⟩
  · rw [← List.takeWhile_append_dropWhile (p := isBlank) (l := text), List.mem_append] at hc
    rcases hc with hc | hc
    · exact List.mem_takeWhile_imp hc
    · exact h c (List.mem_reverse.mpr hc)
  · exact h c ((List.dropWhile_sublist _).subset (List.mem_reverse.mp hc))

end Text

namespace LogEntry

/-- The line for an output, without its line end. -/
def body (path : String) (e : LogEntry) : List Char :=
  Numeral.decimal e.started.toNat ++ ' ' :: Numeral.decimal e.finished.toNat ++
    ' ' :: Numeral.decimal e.mtime.toNat ++ ' ' :: path.toList ++
    ' ' :: Numeral.hexadecimal e.commandHash.toNat

theorem line_eq (path : String) (e : LogEntry) : e.line path = e.body path ++ ['\n'] := rfl

theorem cutField?_append {a : List Char} (h : ' ' ∉ a) (b : List Char) :
    cutField? (a ++ ' ' :: b) = some (a, b) := by
  have hne : ∀ c ∈ a, decide (c ≠ ' ') = true := fun c hc =>
    decide_eq_true fun heq => h (heq ▸ hc)
  unfold cutField?
  rw [List.dropWhile_append_of_pos hne, List.takeWhile_append_of_pos hne]
  simp

theorem cutLastField?_append {b : List Char} (h : ' ' ∉ b) (a : List Char) :
    cutLastField? (a ++ ' ' :: b) = some (a, b) := by
  have hrev : (a ++ ' ' :: b).reverse = b.reverse ++ ' ' :: a.reverse := by simp
  rw [cutLastField?, hrev, cutField?_append (by simpa using h)]
  simp

/-- A line is read as the entry that it was written for, also if the path holds blanks. -/
theorem parse?_body {path : String} (hpath : path ≠ "") (e : LogEntry) :
    parse? (e.body path) = some (path, e) := by
  have hdecimal : ∀ n, ' ' ∉ Numeral.decimal n :=
    Numeral.not_mem_toDigits (by decide) (by decide) (by decide)
  have hhexadecimal : ∀ n, ' ' ∉ Numeral.hexadecimal n :=
    Numeral.not_mem_toDigits (by decide) (by decide) (by decide)
  have hempty : path.toList.isEmpty = false := by
    rw [List.isEmpty_eq_false_iff]
    exact fun h => hpath (String.toList_eq_nil_iff.mp h)
  simp only [parse?, body, List.append_assoc, List.cons_append, cutField?_append (hdecimal _),
    cutLastField?_append (hhexadecimal _), Numeral.word?_decimal, Numeral.word?_hexadecimal,
    Option.bind_eq_bind, Option.bind_some, hempty, Bool.false_eq_true, if_false]
  simp

/-- The line holds no line end, neither inside nor at its end. -/
theorem not_mem_body {path : String} (hpath : '\n' ∉ path.toList) (e : LogEntry) :
    '\n' ∉ e.body path := by
  have hdecimal : ∀ n, '\n' ∉ Numeral.decimal n :=
    Numeral.not_mem_toDigits (by decide) (by decide) (by decide)
  have hhexadecimal : ∀ n, '\n' ∉ Numeral.hexadecimal n :=
    Numeral.not_mem_toDigits (by decide) (by decide) (by decide)
  simp [body, hpath, hdecimal, hhexadecimal]

theorem getLast?_body_ne (path : String) (e : LogEntry) :
    (e.body path).getLast? ≠ some '\r' := by
  have hne : Numeral.hexadecimal e.commandHash.toNat ≠ [] := Nat.toDigits_ne_nil
  rw [body, List.getLast?_append_of_ne_nil _ (List.cons_ne_nil _ _),
    List.getLast?_cons_of_ne_nil hne]
  intro hlast
  exact Numeral.not_mem_toDigits (by decide) (by decide) (by decide) _
    (List.mem_of_getLast? hlast)

theorem trim_body_ne (path : String) (e : LogEntry) : Text.trim (e.body path) ≠ [] := by
  have hne : Numeral.decimal e.started.toNat ≠ [] := Nat.toDigits_ne_nil
  obtain ⟨c, hc⟩ := List.exists_mem_of_ne_nil _ hne
  intro htrim
  have hblank := Text.trim_eq_nil_iff.mp htrim c (by simp [body, hc])
  obtain ⟨d, hd, rfl⟩ := Numeral.mem_toDigits (by decide) hc
  have hdigit : ∀ d < 10, Text.isBlank (Nat.digitChar d) = false := by decide
  rw [hdigit d hd] at hblank
  cases hblank

/-- Lines that are added to a text are read one after the other. -/
theorem lines_line {path : String} (hpath : '\n' ∉ path.toList) (e : LogEntry)
    (more : List Char) : Text.lines (e.line path ++ more) = e.body path :: Text.lines more := by
  rw [line_eq, List.append_assoc]
  refine (Text.cutLines_of_not_mem (not_mem_body hpath e) [] more).trans ?_
  rw [List.nil_append, Text.dropCarriageReturn_of_ne (getLast?_body_ne path e)]
  rfl

end LogEntry

namespace BuildLog

theorem addLine_body (entries : Bindings LogEntry) {path : String} (hpath : path ≠ "")
    (e : LogEntry) : addLine entries (e.body path) = entries.bind path e := by
  have htrim : (Text.trim (e.body path)).isEmpty = false :=
    List.isEmpty_eq_false_iff.mpr (LogEntry.trim_body_ne path e)
  rw [addLine, htrim, LogEntry.parse?_body hpath]
  rfl

/-- The text that is added to the file for records. -/
def written (records : List (String × LogEntry)) : List Char :=
  records.flatMap fun r => r.2.line r.1

/-- A path for which there can be a line. -/
def IsLoggable (path : String) : Prop :=
  path ≠ "" ∧ '\n' ∉ path.toList

/-- The entries with those of records, later ones taking the place of earlier ones. -/
def bindAll (entries : Bindings LogEntry) (records : List (String × LogEntry)) :
    Bindings LogEntry :=
  records.foldl (fun entries r => entries.bind r.1 r.2) entries

/-- Each path has its last record, and otherwise the entry from before. -/
theorem find?_bindAll (entries : Bindings LogEntry) (records : List (String × LogEntry))
    (path : String) : (bindAll entries records).find? path =
      (records.reverse.lookup path).or (entries.find? path) := by
  induction records generalizing entries with
  | nil => rfl
  | cons r records ih =>
    obtain ⟨out, entry⟩ := r
    rw [bindAll, List.foldl_cons, ← bindAll, ih, Bindings.find?_bind, List.reverse_cons,
      List.lookup_append, Option.or_assoc]
    by_cases h : path = out
    · simp [h]
    · simp [h, List.lookup_cons, beq_false_of_ne h]

theorem foldl_addLine_written {records : List (String × LogEntry)}
    (hpaths : ∀ r ∈ records, IsLoggable r.1) (entries : Bindings LogEntry) :
    (Text.lines (written records)).foldl addLine entries = bindAll entries records := by
  induction records generalizing entries with
  | nil => rfl
  | cons r records ih =>
    obtain ⟨⟨hne, hline⟩, hrest⟩ := List.forall_mem_cons.mp hpaths
    rw [written, List.flatMap_cons, ← written, LogEntry.lines_line hline, List.foldl_cons,
      addLine_body _ hne, ih hrest]
    rfl

/-- Contents with a header that end with a line end have room for further lines. -/
theorem entries?_append {contents : Bytes} {text : List Char} {entries : Bindings LogEntry}
    (htext : Utf8.decode? contents = some text) (hend : text.getLast? = some '\n')
    (hentries : entries? contents = some entries) (more : List Char) :
    entries? (contents ++ Utf8.encode more) = some ((Text.lines more).foldl addLine entries) := by
  have hmore : Utf8.decode? (contents ++ Utf8.encode more) = some (text ++ more) := by
    rw [Utf8.decode?_append _ htext, Utf8.decode?_encode]
    rfl
  unfold entries? at hentries ⊢
  rw [htext] at hentries
  rw [hmore]
  simp only [Option.bind_eq_bind, Option.bind_some] at hentries ⊢
  rw [Text.lines_append hend]
  cases hlines : Text.lines text with
  | nil => exact absurd hlines (Text.lines_ne_nil hend)
  | cons first rest =>
    rw [hlines] at hentries
    dsimp only [List.cons_append] at hentries ⊢
    split at hentries
    · next hfirst =>
      obtain rfl := Option.some.inj hentries
      rw [if_pos hfirst, List.foldl_append]
    · cases hentries

/-- The contents of a file that got its header. -/
theorem entries?_header : entries? (Utf8.encode (header ++ ['\n'])) = some ∅ := by
  have hlines : Text.lines (header ++ ['\n']) = [header] := by decide
  simp [entries?, Utf8.decode?_encode, hlines]

end BuildLog

end Rebuild
