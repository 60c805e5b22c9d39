import Mathlib
import Rebuild.Proofs.BuildLog.Entries
import Rebuild.Proofs.BuildLog.Place
import Rebuild.Proofs.Sequence

/-!
# A log that is loaded again

The first record opens the file of a log. It then holds what it held before, or nothing but the
header if that was nothing or not a log, and each record adds a line. So a log that is loaded again
has the entries from before and those that were recorded, if the file did not break off within a
line: the first line that is added to such a file becomes part of the one that breaks off.
-/

namespace Rebuild

variable {ω : Type}

namespace BuildLog

theorem entries?_nil : entries? [] = some ∅ := by
  simp [entries?, Utf8.decode?, Utf8.pieces, Text.lines, Text.cutLines]

/-- What is known behind contents that can be read or are missing. -/
theorem ofFile_of_held {contents : Except IoFault Bytes} {bytes : Bytes} (path : String)
    (h : heldIn? contents = some bytes) : ofFile path contents =
      ⟨(entries? bytes).getD ∅, some ⟨path, none, (entries? bytes).isNone⟩⟩ := by
  match contents with
  | .ok held => cases h; rfl
  | .error .missing => cases h; rw [entries?_nil]; rfl
  | .error (.other _) => cases h

/-! ## Records -/

/-- Remembers entries, one after the other. -/
def recordAll (store : LogStore ω) : List (String × LogEntry) → EStateM Error (Kept ω) Unit
  | [] => return ()
  | (path, entry) :: rest => do
    record store path entry
    recordAll store rest

/-- What a file holds when it was opened, given what it held before. -/
def begun (replace : Bool) (before : Bytes) : Bytes :=
  if replace ∨ before = [] then Utf8.encode (header ++ ['\n']) else before

/-- How far the file of a log has come: nothing was recorded yet and it is as it was, or it was
opened and holds a line for each record. -/
inductive Logged (path : String) (contents : ω → Except IoFault Bytes)
    (refers : ω → LogHandle → Prop) (replace : Bool) (before : Bytes) :
    List (String × LogEntry) → Kept ω → Prop
  | closed {k : Kept ω} : k.log.file = some ⟨path, none, replace⟩ →
    heldIn? (contents k.place) = some before → Logged path contents refers replace before [] k
  | opened {records : List (String × LogEntry)} {k : Kept ω} {handle : LogHandle} :
    k.log.file = some ⟨path, some handle, replace⟩ → refers k.place handle →
    contents k.place = .ok (begun replace before ++ Utf8.encode (written records)) →
    Logged path contents refers replace before records k

section Records

variable {store : LogStore ω} {path : String} {contents : ω → Except IoFault Bytes}
  {refers : ω → LogHandle → Prop} {replace : Bool} {before : Bytes} {k k' : Kept ω}

theorem appendBytes_ok {file : LogFile} {handle : LogHandle} {bytes : Bytes}
    (h : appendBytes store file handle bytes k = .ok () k') :
    k'.log = k.log ∧ store.append handle bytes k.place = .ok k'.place := by
  unfold appendBytes at h
  cases happend : store.append handle bytes k.place with
  | ok place => rw [happend] at h; cases h; exact ⟨rfl, rfl⟩
  | error fault => rw [happend] at h; cases h

theorem openFile_ok (hstore : store.Faithful path contents refers)
    (hheld : heldIn? (contents k.place) = some before) {handle : LogHandle}
    (h : openFile store ⟨path, none, replace⟩ k = .ok handle k') :
    k'.log.file = some ⟨path, some handle, replace⟩ ∧ refers k'.place handle ∧
      contents k'.place = .ok (begun replace before) := by
  obtain ⟨⟨opened, size⟩, u, hopen, h⟩ := Sequence.bind_eq_ok.mp h
  have hplace : store.openFile path replace k.place = .ok ((opened, size), u.place) := by
    cases hresult : store.openFile path replace k.place with
    | ok result =>
      obtain ⟨⟨_, _⟩, _⟩ := result
      rw [hresult] at hopen
      cases hopen
      rfl
    | error fault => rw [hresult] at hopen; cases hopen
  obtain ⟨hrefers, hcontents, hsize⟩ := hstore.opened hheld hplace
  dsimp only at h
  unfold begun
  -- the header is written if nothing was held or what was held is dropped
  by_cases hempty : replace = true ∨ before = []
  · have hnone : (if replace then [] else before) = [] := by
      rcases hempty with rfl | rfl
      · rfl
      · exact ite_self []
    rw [hnone] at hcontents hsize
    rw [if_pos (by simpa using hsize)] at h
    obtain ⟨_, v, hheader, h⟩ := Sequence.bind_eq_ok.mp h
    obtain ⟨-, happend⟩ := appendBytes_ok hheader
    obtain ⟨hvrefers, hvcontents⟩ := hstore.appended hrefers hcontents happend
    cases h
    exact ⟨rfl, hvrefers, by rw [if_pos hempty]; exact hvcontents⟩
  · rw [not_or, Bool.not_eq_true] at hempty
    obtain ⟨rfl, hsome⟩ := hempty
    rw [if_neg (by simpa [hsize] using hsome)] at h
    cases h
    exact ⟨rfl, hrefers, by simpa [hsome] using hcontents⟩

theorem written_append (records : List (String × LogEntry)) (out : String) (entry : LogEntry) :
    written (records ++ [(out, entry)]) = written records ++ entry.line out := by
  simp [written]

/-- A record opens the file if that was not done before, and adds a line. -/
theorem Logged.record (hstore : store.Faithful path contents refers)
    {records : List (String × LogEntry)}
    (hk : Logged path contents refers replace before records k) {out : String} {entry : LogEntry}
    (h : record store out entry k = .ok () k') :
    Logged path contents refers replace before (records ++ [(out, entry)]) k' := by
  obtain ⟨_, _, hbind, h⟩ := Sequence.bind_eq_ok.mp h
  cases hbind
  rw [Sequence.get_bind] at h
  -- whichever way the file is open before the line is added
  have hopened : ∃ file handle u, file.path = path ∧
      appendBytes store file handle (Utf8.encode (entry.line out)) u = .ok () k' ∧
      u.log.file = some ⟨path, some handle, replace⟩ ∧ refers u.place handle ∧
      contents u.place = .ok (begun replace before ++ Utf8.encode (written records)) := by
    cases hk with
    | closed hfile hheld =>
      rw [hfile] at h
      obtain ⟨handle, u, hopen, h⟩ := Sequence.bind_eq_ok.mp h
      obtain ⟨hfile, hrefers, hcontents⟩ := openFile_ok hstore (by exact hheld) hopen
      exact ⟨_, handle, u, rfl, h, hfile, hrefers, by simpa [written, Utf8.encode] using hcontents⟩
    | @opened _ _ handle hfile hrefers hcontents =>
      rw [hfile] at h
      exact ⟨_, handle, _, rfl, h, hfile, hrefers, hcontents⟩
  obtain ⟨file, handle, u, -, happend, hfile, hrefers, hcontents⟩ := hopened
  obtain ⟨hlog, happend⟩ := appendBytes_ok happend
  obtain ⟨hrefers, hcontents⟩ := hstore.appended hrefers hcontents happend
  refine .opened (hlog ▸ hfile) hrefers ?_
  rw [hcontents, written_append, Utf8.encode_append, List.append_assoc]

theorem Logged.recordAll (hstore : store.Faithful path contents refers)
    {records more : List (String × LogEntry)}
    (hk : Logged path contents refers replace before records k)
    (h : recordAll store more k = .ok () k') :
    Logged path contents refers replace before (records ++ more) k' := by
  induction more generalizing records k with
  | nil =>
    obtain ⟨-, rfl⟩ := Sequence.pure_eq_ok.mp h
    rwa [List.append_nil]
  | cons r more ih =>
    obtain ⟨_, u, hfirst, hrest⟩ := Sequence.bind_eq_ok.mp h
    rw [List.append_cons]
    exact ih (hk.record hstore hfirst) hrest

end Records

/-! ## Loading again -/

/-- Contents do not break off within a line. -/
def IsWhole (contents : Bytes) : Prop :=
  ∀ text, Utf8.decode? contents = some text → text = [] ∨ text.getLast? = some '\n'

/-- The file has the entries from before and those of the records, if what it held before does not
break off within a line or is dropped. -/
theorem entries?_begun {before : Bytes} (hwhole : (entries? before).isSome → IsWhole before)
    {records : List (String × LogEntry)} (hpaths : ∀ r ∈ records, IsLoggable r.1) :
    entries? (begun (entries? before).isNone before ++ Utf8.encode (written records)) =
      some (bindAll ((entries? before).getD ∅) records) := by
  have hadd : ∀ {contents text entries}, Utf8.decode? contents = some text →
      text.getLast? = some '\n' → entries? contents = some entries →
      entries? (contents ++ Utf8.encode (written records)) = some (bindAll entries records) := by
    intro contents text entries htext hend hentries
    rw [entries?_append htext hend hentries, foldl_addLine_written hpaths]
  have hheader := hadd (Utf8.decode?_encode (header ++ ['\n'])) (by simp) entries?_header
  cases hentries : entries? before with
  | none => exact hheader
  | some entries =>
    by_cases hbefore : before = []
    · subst hbefore
      obtain rfl : ∅ = entries := Option.some.inj (entries?_nil.symm.trans hentries)
      exact hheader
    · obtain ⟨text, htext⟩ : ∃ text, Utf8.decode? before = some text := by
        cases htext : Utf8.decode? before with
        | some text => exact ⟨text, rfl⟩
        | none => rw [entries?, htext] at hentries; cases hentries
      have hend := (hwhole (by rw [hentries]; rfl) text htext).resolve_left ?_
      · rw [begun, if_neg (by simp [hbefore])]
        exact hadd htext hend hentries
      · rintro rfl
        exact hbefore (Utf8.decode?_eq_some_nil htext)

section Entries

variable {entries : Bindings LogEntry} {records : List (String × LogEntry)} {path : String}

theorem lookup_reverse_of_not_mem (h : path ∉ records.map Prod.fst) :
    records.reverse.lookup path = none := by
  rw [List.lookup_eq_none_iff]
  intro r hr
  exact bne_iff_ne.mpr fun heq =>
    h (heq ▸ List.mem_map_of_mem (List.mem_reverse.mp hr))

theorem find?_bindAll_of_not_mem (h : path ∉ records.map Prod.fst) :
    (bindAll entries records).find? path = entries.find? path := by
  rw [find?_bindAll, lookup_reverse_of_not_mem h, Option.none_or]

theorem find?_bindAll_of_last {entry : LogEntry} {more : List (String × LogEntry)}
    (h : path ∉ more.map Prod.fst) :
    (bindAll entries (records ++ (path, entry) :: more)).find? path = some entry := by
  rw [find?_bindAll, List.reverse_append, List.reverse_cons, List.append_assoc,
    List.lookup_append, lookup_reverse_of_not_mem h, Option.none_or]
  simp

end Entries

/-- A log whose file did not break off within a line loses nothing: when it is loaded again after
any records, each path has the last entry that was recorded for it, and a path for which there was
no record has the entry from before. It does not matter what the file held if that was not a log. -/
theorem reload_keeps {store : LogStore ω} {path : String} {contents : ω → Except IoFault Bytes}
    {refers : ω → LogHandle → Prop} (hstore : store.Faithful path contents refers) {place : ω}
    {before : Bytes} (hbefore : heldIn? (contents place) = some before)
    (hwhole : (entries? before).isSome → IsWhole before) {records : List (String × LogEntry)}
    (hpaths : ∀ r ∈ records, IsLoggable r.1) {k : Kept ω}
    (h : recordAll store records ⟨ofFile path (contents place), place⟩ = .ok () k) :
    (∀ out ∉ records.map Prod.fst, (ofFile path (contents k.place)).find? out =
      (ofFile path (contents place)).find? out) ∧
    ∀ earlier out entry later, records = earlier ++ (out, entry) :: later →
      out ∉ later.map Prod.fst →
        (ofFile path (contents k.place)).find? out = some entry := by
  have hfirst := ofFile_of_held path hbefore
  have hlogged : Logged path contents refers (entries? before).isNone before records k :=
    (Logged.closed (by rw [hfirst]) hbefore).recordAll hstore h
  have hreload : (ofFile path (contents k.place)).entries =
      bindAll ((entries? before).getD ∅) records := by
    cases hlogged with
    | closed _ hheld => rw [ofFile_of_held path hheld]; rfl
    | opened _ _ hcontents =>
      rw [ofFile_of_held path (congrArg heldIn? hcontents), entries?_begun hwhole hpaths]
      rfl
  simp only [BuildLog.find?, hreload, hfirst]
  refine ⟨fun out hout => find?_bindAll_of_not_mem hout, ?_⟩
  rintro earlier out entry later rfl hlast
  exact find?_bindAll_of_last hlast

/-- The file of a log of two outputs that were built. -/
def loggedText : List Char :=
  header ++ ['\n'] ++ written [("a.o", ⟨1, 2, 3, 0xff⟩), ("b.o", ⟨4, 5, 6, 0xee⟩)]

def loggedShop : Workshop :=
  let file : FileBody := ⟨Utf8.encode loggedText, 0, FileTree.fileMode⟩
  .start [] "/" (.start (((FileTree.empty 0).put ["log"] (.file 0)).setBody 0 file) 0)

/-- The log and its workshop after one of the outputs was built again. -/
def relogged : Kept Workshop :=
  match recordAll Workshop.logStore [("a.o", ⟨7, 8, 9, 0xdd⟩)]
    ⟨⟨⟨[("a.o", ⟨1, 2, 3, 0xff⟩), ("b.o", ⟨4, 5, 6, 0xee⟩)]⟩, some ⟨"log", none, false⟩⟩,
      loggedShop⟩ with
  | .ok _ k | .error _ k => k

theorem reload_keeps_built :
    (relogged.place.loadLog "log").find? "a.o" = some ⟨7, 8, 9, 0xdd⟩ ∧
    (relogged.place.loadLog "log").find? "b.o" = some ⟨4, 5, 6, 0xee⟩ := by
  have hread : (loggedShop.scene.tree.read loggedShop.here "log").mapError TreeFault.toIoFault =
      .ok (Utf8.encode loggedText) := by cbv
  have hentries : entries? (Utf8.encode loggedText) =
      some ⟨[("a.o", ⟨1, 2, 3, 0xff⟩), ("b.o", ⟨4, 5, 6, 0xee⟩)]⟩ := by
    rw [loggedText, Utf8.encode_append, entries?_append (Utf8.decode?_encode _) (by simp)
      entries?_header, foldl_addLine_written (by simp [IsLoggable])]
    rfl
  have hload : loggedShop.loadLog "log" =
      ⟨⟨[("a.o", ⟨1, 2, 3, 0xff⟩), ("b.o", ⟨4, 5, 6, 0xee⟩)]⟩, some ⟨"log", none, false⟩⟩ := by
    rw [Workshop.loadLog, hread, ofFile_of_held "log" rfl, hentries]
    rfl
  have hrecorded : recordAll Workshop.logStore [("a.o", ⟨7, 8, 9, 0xdd⟩)]
      ⟨loggedShop.loadLog "log", loggedShop⟩ = .ok () relogged := by
    rw [hload]
    cbv
  have hwhole : IsWhole (Utf8.encode loggedText) := by
    intro text htext
    rw [Utf8.decode?_encode] at htext
    obtain rfl := Option.some.inj htext
    exact .inr rfl
  obtain ⟨hkept, hlast⟩ := reload_keeps (Workshop.logStore_faithful "log" (by decide))
    (congrArg heldIn? hread) (fun _ => hwhole) (by simp [IsLoggable]) hrecorded
  refine ⟨hlast [] "a.o" ⟨7, 8, 9, 0xdd⟩ [] rfl (by simp), (hkept "b.o" (by simp)).trans ?_⟩
  exact congrArg (BuildLog.find? · "b.o") hload

end BuildLog

end Rebuild
