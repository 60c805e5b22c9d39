import Rebuild.BuildLog
import Rebuild.Proofs.Sequence

/-!
# Writing to the log file

Recording an entry binds it and then writes a line for it: the log file is opened, unless that was
done before, and the line added to it. What opening a file and adding to one keep, and noting a
handle, is kept by writing the line, whether it succeeds or not.
-/

namespace Rebuild.BuildLog

open Sequence

variable {ω : Type} {store : LogStore ω} {R : Kept ω → Kept ω → Prop}

/-- Writes the line for an entry, if there is a log file. -/
def writeLine (store : LogStore ω) (path : String) (entry : LogEntry) :
    EStateM Error (Kept ω) Unit := do
  match (← get).log.file with
  | none => return ()
  | some file =>
    let handle ← openOnce store file
    appendBytes store file handle (Utf8.encode (entry.line path))

/-- What the parts of writing a line keep. -/
structure Writing (store : LogStore ω) (R : Kept ω → Kept ω → Prop) : Prop where
  refl : ∀ k, R k k
  trans : ∀ k k' k'', R k k' → R k' k'' → R k k''
  note : ∀ k file, R k { k with log.file := file }
  openFile : ∀ k path replace opened place,
    store.openFile path replace k.place = .ok (opened, place) → R k { k with place := place }
  append : ∀ k handle bytes place,
    store.append handle bytes k.place = .ok place → R k { k with place := place }

namespace Writing

theorem appendBytes (h : Writing store R) (file : LogFile) (handle : LogHandle) (bytes : Bytes) :
    Keeps R (BuildLog.appendBytes store file handle bytes) := by
  intro k
  unfold BuildLog.appendBytes
  cases happend : store.append handle bytes k.place with
  | ok place => exact h.append k handle bytes place happend
  | error fault => exact h.refl k

theorem openLog (h : Writing store R) (file : LogFile) :
    Keeps R (BuildLog.openFile store file) := by
  refine .bind h.trans (fun k => ?_) fun (handle, size) => ?_
  · cases hopen : store.openFile file.path file.replace k.place with
    | ok result => exact h.openFile k _ _ _ _ hopen
    | error fault => exact h.refl k
  · have hrest : Keeps R (do
        modify fun k : Kept ω => { k with log.file := some { file with handle := some handle } }
        return handle) :=
      .bind h.trans (.modify fun k => h.note k _) fun _ => .pure h.refl _
    dsimp only
    split
    · exact .bind h.trans (h.appendBytes _ _ _) fun _ => hrest
    · exact hrest

theorem writeLine (h : Writing store R) (path : String) (entry : LogEntry) :
    Keeps R (BuildLog.writeLine store path entry) := by
  refine .bind h.trans (.get h.refl) fun k => ?_
  split
  · exact .pure h.refl _
  · refine .bind h.trans ?_ fun handle => h.appendBytes _ _ _
    unfold BuildLog.openOnce
    split
    · exact .pure h.refl _
    · exact h.openLog _

end Writing

/-- Recording an entry binds it, also if the line cannot be written. -/
theorem record_entries (store : LogStore ω) (path : String) (entry : LogEntry) :
    Keeps (fun k k' => k'.log.entries = k.log.entries.bind path entry)
      (record store path entry) := by
  have hwriting : Writing store fun k k' => k'.log.entries = k.log.entries :=
    ⟨fun _ => rfl, fun _ _ _ h h' => Eq.trans h' h, fun _ _ => rfl, fun _ _ _ _ _ _ => rfl,
      fun _ _ _ _ _ => rfl⟩
  exact fun k => hwriting.writeLine path entry { k with log.entries := _ }

/-- What writing a line keeps, recording an entry keeps if binding it does. -/
theorem Writing.record (h : Writing store R) {path : String} {entry : LogEntry}
    (hbind : ∀ k, R k { k with log.entries := k.log.entries.bind path entry }) :
    Keeps R (BuildLog.record store path entry) :=
  .bind h.trans (.modify hbind) fun _ => h.writeLine path entry

end Rebuild.BuildLog
