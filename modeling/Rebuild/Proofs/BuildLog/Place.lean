import Rebuild.Workshop

/-!
# Places that keep log files

What a log relies on where its file is kept: opening the file keeps or drops what it holds, and
bytes are added to its end. Workshops keep log files in this way, whatever their file tree looks
like.
-/

namespace Rebuild

/-- What a file holds that can be read or is missing, which counts as empty. -/
def heldIn? : Except IoFault Bytes → Option Bytes
  | .ok bytes => some bytes
  | .error .missing => some []
  | .error (.other _) => none

/-- A place keeps the file of a path as file systems do. `contents` is what reading the path gives,
and `refers` tells the handles that stand for the file. -/
structure LogStore.Faithful {ω : Type} (store : LogStore ω) (path : String)
    (contents : ω → Except IoFault Bytes) (refers : ω → LogHandle → Prop) : Prop where
  opened : ∀ {w w' replace handle size bytes}, heldIn? (contents w) = some bytes →
    store.openFile path replace w = .ok ((handle, size), w') → refers w' handle ∧
      contents w' = .ok (if replace then [] else bytes) ∧
      size = (if replace then [] else bytes).length
  appended : ∀ {w w' handle bytes more}, refers w handle → contents w = .ok bytes →
    store.append handle more w = .ok w' → refers w' handle ∧ contents w' = .ok (bytes ++ more)

namespace FileTree

/-! ## Resolving paths in a tree that changes -/

/-- A tree differs from another one at most in that a file was made at a place where nothing stood,
and in when directories were changed. -/
def Makes (place : Place) (t t' : FileTree) : Prop :=
  ∀ p, t'.find? p = t.find? p ∨
    (∃ time mode time' mode', t.find? p = some (.directory time mode) ∧
      t'.find? p = some (.directory time' mode')) ∨
    p = place ∧ t.find? p = none ∧ ∃ id, t'.find? p = some (.file id)

variable {t t' : FileTree} {place : Place}

theorem Makes.enter (h : Makes place t t') {here target : Place} {name : String}
    (henter : t.enter here name = .ok target) : t'.enter here name = .ok target := by
  unfold FileTree.enter at henter ⊢
  rcases h here with heq | ⟨time, mode, time', mode', hbefore, hafter⟩ | ⟨-, hnone, -⟩
  · rwa [heq]
  · rw [hbefore] at henter
    rw [hafter]
    exact henter
  · rw [hnone] at henter
    cases henter

theorem Makes.find?_link (h : Makes place t t') {p : Place} {target : String} :
    t'.find? p = some (.link target) ↔ t.find? p = some (.link target) := by
  rcases h p with heq | ⟨_, _, _, _, hbefore, hafter⟩ | ⟨-, hnone, _, hfile⟩
  · rw [heq]
  · simp [hbefore, hafter]
  · simp [hnone, hfile]

/-- What a path leads to stays where it is. -/
theorem Makes.walk (h : Makes place t t') {links : Nat} {toEnd : Bool} {here target : Place}
    {names : List String} (hwalk : t.walk links toEnd here names = .ok target) :
    t'.walk links toEnd here names = .ok target := by
  induction links, here, names using FileTree.walk.induct t toEnd with
  | case1 links here => rwa [FileTree.walk] at hwalk ⊢
  | case2 links here name rest fault henter =>
    rw [FileTree.walk, henter] at hwalk
    cases hwalk
  | case3 links here name rest next henter link hlink hend =>
    rw [FileTree.walk, henter] at hwalk
    rw [FileTree.walk, h.enter henter]
    simp only [hlink, h.find?_link.mpr hlink, hend, if_true] at hwalk ⊢
    exact hwalk
  | case4 here name rest next henter link hlink hend =>
    rw [FileTree.walk, henter] at hwalk
    simp [hlink, hend] at hwalk
  | case5 here name rest next henter link hlink hend links ih =>
    rw [FileTree.walk, henter] at hwalk
    rw [FileTree.walk, h.enter henter]
    simp only [hlink, h.find?_link.mpr hlink, if_neg hend] at hwalk ⊢
    exact ih hwalk
  | case6 links here name rest next henter hlink ih =>
    rw [FileTree.walk, henter] at hwalk
    rw [FileTree.walk, h.enter henter]
    have hlink' : ∀ target, t'.find? next = some (.link target) → False :=
      fun target htarget => hlink target (h.find?_link.mp htarget)
    simp only at hwalk ⊢
    exact ih hwalk

/-- What a path leads to, if it does not end in a separator. -/
theorem resolve_eq_ok_iff {here target : Place} {path : String}
    (hpath : path.toList.getLast? ≠ some '/') : t.resolve here path = .ok target ↔
      path.toList ≠ [] ∧ ¬path.toList.contains '\x00' ∧ ¬pathLimit ≤ path.utf8ByteSize ∧
        t.walk maxLinks true (startOf here path) (namesOf path) = .ok target := by
  unfold FileTree.resolve FileTree.resolveWith
  simp only [hpath, decide_false, Bool.or_false]
  by_cases hempty : path.toList = []
  · rw [if_pos hempty]
    exact iff_of_false (nomatch ·) fun h => h.1 hempty
  rw [if_neg hempty]
  by_cases hzero : path.toList.contains '\x00'
  · rw [if_pos hzero]
    exact iff_of_false (nomatch ·) fun h => h.2.1 hzero
  rw [if_neg hzero]
  by_cases hlong : pathLimit ≤ path.utf8ByteSize
  · rw [if_pos hlong]
    exact iff_of_false (nomatch ·) fun h => h.2.2.1 hlong
  rw [if_neg hlong]
  cases t.walk maxLinks true (startOf here path) (namesOf path) with
  | error fault => exact iff_of_false (nomatch ·) fun h => nomatch h.2.2.2
  | ok place => exact ⟨fun h => ⟨hempty, hzero, hlong, h⟩, fun h => h.2.2.2⟩

theorem Makes.resolve (h : Makes place t t') {here target : Place} {path : String}
    (hpath : path.toList.getLast? ≠ some '/') (hresolve : t.resolve here path = .ok target) :
    t'.resolve here path = .ok target := by
  rw [resolve_eq_ok_iff hpath] at hresolve ⊢
  obtain ⟨hempty, hzero, hlong, hwalk⟩ := hresolve
  exact ⟨hempty, hzero, hlong, h.walk hwalk⟩

/-! ## Files that change -/

theorem makes_setBody (t : FileTree) (id : FileId) (body : FileBody) (place : Place) :
    Makes place t (t.setBody id body) :=
  fun _ => .inl rfl

theorem makes_append (t : FileTree) (now : Timestamp) (id : FileId) (bytes : Bytes)
    (place : Place) : Makes place t (t.append now id bytes) := by
  unfold FileTree.append
  split
  · exact fun _ => .inl rfl
  · exact makes_setBody t id _ place

theorem bytes_append (t : FileTree) (now : Timestamp) (id : FileId) (bytes : Bytes) :
    ((t.append now id bytes).body id).bytes = (t.body id).bytes ++ bytes := by
  unfold FileTree.append
  split
  · next h => rw [h, List.append_nil]
  · rw [body_setBody, if_pos rfl]

theorem find?_append (t : FileTree) (now : Timestamp) (id : FileId) (bytes : Bytes)
    (place : Place) : (t.append now id bytes).find? place = t.find? place := by
  unfold FileTree.append
  split <;> rfl

/-- Making a file in a directory is noted in the directory. -/
theorem find?_addFile {now time : Timestamp} {mode : Nat} (body : FileBody)
    (hnone : t.find? place = none) (hdir : t.find? place.dropLast = some (.directory time mode))
    (p : Place) : (t.addFile now place body).2.find? p =
      if p = place.dropLast then some (.directory now mode)
      else if p = place then some (.file t.freshId) else t.find? p := by
  have hne : place.dropLast ≠ place := fun heq => by rw [heq, hnone] at hdir; cases hdir
  have haround : ((t.setBody t.freshId body).put place (.file t.freshId)).find? place.dropLast =
      some (.directory time mode) := by
    rw [find?_put, if_neg hne, find?_setBody, hdir]
  rw [addFile, create, touchAround, haround]
  simp only [find?_put, find?_setBody]

theorem makes_addFile {now time : Timestamp} {mode : Nat} (body : FileBody)
    (hnone : t.find? place = none)
    (hdir : t.find? place.dropLast = some (.directory time mode)) :
    Makes place t (t.addFile now place body).2 := by
  intro p
  rw [find?_addFile body hnone hdir]
  by_cases haround : p = place.dropLast
  · rw [if_pos haround]
    exact .inr (.inl ⟨time, mode, now, mode, haround ▸ hdir, rfl⟩)
  by_cases hplace : p = place
  · rw [if_neg haround, if_pos hplace]
    exact .inr (.inr ⟨hplace, hplace ▸ hnone, _, rfl⟩)
  · rw [if_neg haround, if_neg hplace]
    exact .inl rfl

theorem body_addFile {now : Timestamp} (body : FileBody) (place : Place) :
    (t.addFile now place body).2.body t.freshId = body := by
  have hput : ((t.setBody t.freshId body).put place (.file t.freshId)).body t.freshId = body := by
    rw [body_put, body_setBody, if_pos rfl]
  rw [addFile, create, touchAround]
  split <;> exact hput

theorem read_of_resolve {here : Place} {path : String}
    (hresolve : t.resolve here path = .ok place) : t.read here path =
      match t.find? place with
      | none => .error .missing
      | some (.directory _ _) => .error .isDirectory
      | some entry => .ok (t.contentsOf entry) := by
  unfold FileTree.read FileTree.lookUp FileTree.entryAt
  rw [hresolve]
  dsimp only [bind, Except.bind]
  cases t.find? place with
  | none => rfl
  | some entry => cases entry <;> rfl

/-- Opening a file for writing keeps or drops what it holds, and makes it if it is missing. -/
theorem openPath_file {now : Timestamp} {here : Place} {path : String} {mode : Nat}
    {truncate : Bool} {id : FileId} (hpath : path.toList.getLast? ≠ some '/')
    (h : t.openPath now here path ⟨some mode, truncate⟩ = .ok (.file id, t')) :
    ∃ place, t'.resolve here path = .ok place ∧ t'.find? place = some (.file id) ∧
      ((t.read here path = .error .missing ∧ (t'.body id).bytes = []) ∨
        t.read here path = .ok (t.body id).bytes ∧
          (t'.body id).bytes = if truncate then [] else (t.body id).bytes) := by
  unfold openPath at h
  cases hresolve : t.resolve here path with
  | error fault => rw [hresolve] at h; cases h
  | ok place =>
    rw [hresolve] at h
    change t.openAt now place ⟨some mode, truncate⟩ = _ at h
    refine ⟨place, ?_⟩
    rw [read_of_resolve hresolve]
    cases hfind : t.find? place with
    | none =>
      cases haround : t.find? place.dropLast with
      | none => simp [openAt, hfind, haround] at h
      | some entry =>
        cases entry with
        | directory time dirMode =>
          simp only [openAt, hfind, haround] at h
          obtain ⟨hid, rfl⟩ := Prod.mk.inj (Except.ok.inj h)
          obtain rfl : t.freshId = id := Entry.file.inj hid
          have hne : place ≠ place.dropLast := fun heq => by
            rw [← heq, hfind] at haround
            cases haround
          refine ⟨(makes_addFile _ hfind haround).resolve hpath hresolve, ?_, .inl ⟨rfl, ?_⟩⟩
          · rw [find?_addFile _ hfind haround, if_neg hne, if_pos rfl]
          · rw [body_addFile]
        | _ => simp [openAt, hfind, haround] at h
    | some entry =>
      cases entry with
      | file other =>
        simp only [openAt, hfind] at h
        obtain ⟨hid, rfl⟩ := Prod.mk.inj (Except.ok.inj h)
        obtain rfl : other = id := Entry.file.inj hid
        cases truncate with
        | false => exact ⟨hresolve, hfind, .inr ⟨rfl, rfl⟩⟩
        | true =>
          refine ⟨(makes_setBody t other _ place).resolve hpath hresolve, hfind, .inr ⟨rfl, ?_⟩⟩
          rw [if_pos rfl, if_pos rfl, body_setBody, if_pos rfl]
      | _ => simp [openAt, hfind] at h

end FileTree

namespace Workshop

/-- Workshops keep log files as file systems do, under any path that does not end in a separator. -/
theorem logStore_faithful (path : String) (hpath : path.toList.getLast? ≠ some '/') :
    logStore.Faithful path
      (fun w => (w.scene.tree.read w.here path).mapError TreeFault.toIoFault)
      (fun w handle => ∃ place, w.scene.tree.resolve w.here path = .ok place ∧
        w.scene.tree.find? place = some (.file handle)) where
  opened {w w' replace handle size bytes} hheld h := by
    change w.openLog path replace = _ at h
    unfold openLog at h
    split at h
    · next id tree hopen =>
      cases h
      obtain ⟨place, hresolve, hfile, hread⟩ := FileTree.openPath_file hpath hopen
      refine ⟨⟨place, hresolve, hfile⟩, ?_⟩
      have hbytes : (tree.body handle).bytes = if replace then [] else bytes := by
        rcases hread with ⟨hread, hbytes⟩ | ⟨hread, hbytes⟩
        · rw [hread] at hheld
          cases hheld
          rw [hbytes, ite_self]
        · rw [hread] at hheld
          cases hheld
          exact hbytes
      have hcontents : tree.read w.here path = .ok (tree.body handle).bytes := by
        rw [FileTree.read_of_resolve hresolve, hfile]
        rfl
      exact ⟨by rw [← hbytes]; exact congrArg (Except.mapError _) hcontents, by rw [hbytes]⟩
    · cases h
    · cases h
  appended {w w' handle bytes more} hrefers hcontents h := by
    change w.appendLog handle more = _ at h
    obtain rfl := Except.ok.inj h
    obtain ⟨place, hresolve, hfile⟩ := hrefers
    have hresolve' := (FileTree.makes_append w.scene.tree w.scene.stamp handle more place).resolve
      hpath hresolve
    have hfile' := (w.scene.tree.find?_append w.scene.stamp handle more place).trans hfile
    refine ⟨⟨place, hresolve', hfile'⟩, ?_⟩
    rw [FileTree.read_of_resolve hresolve, hfile] at hcontents
    obtain rfl : (w.scene.tree.body handle).bytes = bytes := Except.ok.inj hcontents
    have hread : (w.scene.tree.append w.scene.stamp handle more).read w.here path =
        .ok ((w.scene.tree.body handle).bytes ++ more) := by
      rw [FileTree.read_of_resolve hresolve', hfile', ← FileTree.bytes_append]
      rfl
    exact congrArg (Except.mapError _) hread

end Workshop

end Rebuild
