import Rebuild.Proofs.BuildLog.Entries

/-!
# Reading logs back

A log file is a header and then lines, some that were written for outputs and others that say
nothing: blank ones, and ones that no entry can be read from. Whatever the outputs are called, as
long as their names fit on a line, and wherever the other lines stand, reading the file gives every
output the entry of its last line, and no other path an entry.
-/

namespace Rebuild.BuildLog

/-- A line that says nothing: it is blank, or no entry can be read from it. A carriage return may
only stand in a blank one, as it would belong to the line end if it came last. -/
structure PassedOver (line : List Char) : Prop where
  one_line : '\n' ∉ line
  unread : Text.trim line = [] ∨ '\r' ∉ line ∧ LogEntry.parse? line = none

/-- A line of a log file below its header. -/
inductive LogLine
  | recorded (path : String) (entry : LogEntry) (loggable : IsLoggable path)
  | other (line : List Char) (passed : PassedOver line)

namespace LogLine

/-- The line as it stands in the file. -/
def text : LogLine → List Char
  | .recorded path entry _ => entry.line path
  | .other line _ => line ++ ['\n']

/-- The line without its end. -/
def body : LogLine → List Char
  | .recorded path entry _ => entry.body path
  | .other line _ => line

/-- The output that the line was written for, with its entry. -/
def record? : LogLine → Option (String × LogEntry)
  | .recorded path entry _ => some (path, entry)
  | .other _ _ => none

end LogLine

/-- The text of a log file. The last line may lack its end if it says nothing. -/
def fileText (lines : List LogLine) (last : List Char) : List Char :=
  header ++ '\n' :: lines.flatMap LogLine.text ++ last

theorem addLine_of_blank (entries : Bindings LogEntry) {line : List Char}
    (h : Text.trim line = []) : addLine entries line = entries := by
  rw [addLine, h]
  rfl

theorem PassedOver.addLine_eq {line : List Char} (h : PassedOver line)
    (entries : Bindings LogEntry) : addLine entries line = entries := by
  rcases h.unread with hblank | ⟨-, hparse⟩
  · exact addLine_of_blank entries hblank
  · rw [addLine, hparse, ite_self]

/-- It makes no difference that a line end takes the carriage return before it. -/
theorem PassedOver.addLine_dropCarriageReturn {line : List Char} (h : PassedOver line)
    (entries : Bindings LogEntry) :
    addLine entries (Text.dropCarriageReturn line) = entries := by
  rcases h.unread with hblank | ⟨hreturn, -⟩
  · refine addLine_of_blank entries (Text.trim_eq_nil_iff.mpr fun c hc => ?_)
    exact Text.trim_eq_nil_iff.mp hblank c ((Text.dropCarriageReturn_sublist line).subset hc)
  · rw [Text.dropCarriageReturn_of_ne fun hlast => hreturn (List.mem_of_getLast? hlast)]
    exact h.addLine_eq entries

namespace LogLine

theorem text_eq : ∀ l : LogLine, l.text = l.body ++ ['\n']
  | .recorded path entry _ => entry.line_eq path
  | .other _ _ => rfl

theorem not_mem_body : ∀ l : LogLine, '\n' ∉ l.body
  | .recorded _ entry loggable => entry.not_mem_body loggable.2
  | .other _ passed => passed.one_line

theorem lines_text (l : LogLine) (more : List Char) :
    Text.lines (l.text ++ more) = Text.dropCarriageReturn l.body :: Text.lines more := by
  rw [text_eq, List.append_assoc]
  exact Text.cutLines_of_not_mem l.not_mem_body [] more

/-- A line binds what it was written for, if anything. -/
theorem addLine_body (l : LogLine) (entries : Bindings LogEntry) :
    addLine entries (Text.dropCarriageReturn l.body) = bindAll entries l.record?.toList := by
  cases l with
  | recorded path entry loggable =>
    have hend : Text.dropCarriageReturn (entry.body path) = entry.body path :=
      Text.dropCarriageReturn_of_ne (entry.getLast?_body_ne path)
    exact (congrArg (addLine entries) hend).trans (BuildLog.addLine_body entries loggable.1 entry)
  | other line passed => exact passed.addLine_dropCarriageReturn entries

end LogLine

/-- Lines are taken in one after the other. -/
theorem foldl_addLine_text (lines : List LogLine) (last : List Char)
    (entries : Bindings LogEntry) :
    (Text.lines (lines.flatMap LogLine.text ++ last)).foldl addLine entries =
      (Text.lines last).foldl addLine (bindAll entries (lines.filterMap LogLine.record?)) := by
  induction lines generalizing entries with
  | nil => rfl
  | cons l lines ih =>
    rw [List.flatMap_cons, List.append_assoc, l.lines_text, List.foldl_cons, l.addLine_body, ih]
    cases hrecord : l.record? with
    | none => rw [List.filterMap_cons_none hrecord]; rfl
    | some r => rw [List.filterMap_cons_some hrecord]; rfl

/-- A last line without an end is a line like the others, unless nothing is left of it. -/
theorem PassedOver.foldl_addLine {line : List Char} (h : PassedOver line)
    (entries : Bindings LogEntry) : (Text.lines line).foldl addLine entries = entries := by
  rw [Text.lines_of_not_mem h.one_line]
  split
  · rfl
  · exact h.addLine_eq entries

/-- A log file is read back: every path has the entry of the last line that was written for it, and
no entry if there is no such line. -/
theorem log_reads_back (lines : List LogLine) {last : List Char} (hlast : PassedOver last) :
    ∃ entries, entries? (Utf8.encode (fileText lines last)) = some entries ∧
      ∀ path, entries.find? path =
        (lines.filterMap LogLine.record?).reverse.lookup path := by
  refine ⟨bindAll ∅ (lines.filterMap LogLine.record?), ?_, fun path => ?_⟩
  · have htext : fileText lines last =
        header ++ ['\n'] ++ (lines.flatMap LogLine.text ++ last) := by
      simp [fileText]
    rw [htext, Utf8.encode_append, entries?_append (Utf8.decode?_encode _) (by simp)
      entries?_header, foldl_addLine_text, hlast.foldl_addLine]
  · rw [find?_bindAll, Bindings.find?_empty, Option.or_none]

/-- A log with names that look like more fields, and with lines that nobody wrote. -/
def spoiltLines : List LogLine :=
  [.other "garbage".toList ⟨by decide, .inr ⟨by decide, by decide⟩⟩,
    .other "1 2 x a.o ff".toList ⟨by decide, .inr ⟨by decide, by decide⟩⟩,
    .recorded " 4 b.o ff " ⟨1, 2, 3, 0xff⟩ ⟨by decide, by decide⟩,
    .other " \r".toList ⟨by decide, .inl (by decide)⟩,
    .recorded "b.o" ⟨4, 5, 6, 0xee⟩ ⟨by decide, by decide⟩,
    .other "1 2 3 c.o zz".toList ⟨by decide, .inr ⟨by decide, by decide⟩⟩,
    .recorded "b.o" ⟨7, 8, 9, 0xdd⟩ ⟨by decide, by decide⟩]

theorem log_reads_back_spoilt :
    ∃ entries, entries? (Utf8.encode (fileText spoiltLines "1 2 3".toList)) = some entries ∧
      entries.find? "a.o" = none ∧ entries.find? "b.o" = some ⟨7, 8, 9, 0xdd⟩ ∧
      entries.find? " 4 b.o ff " = some ⟨1, 2, 3, 0xff⟩ ∧ entries.find? "c.o" = none := by
  have hlast : PassedOver "1 2 3".toList := ⟨by decide, .inr ⟨by decide, by decide⟩⟩
  obtain ⟨entries, hentries, hfind⟩ := log_reads_back spoiltLines hlast
  refine ⟨entries, hentries, ?_, ?_, ?_, ?_⟩
  all_goals exact (hfind _).trans (by decide)

end Rebuild.BuildLog
