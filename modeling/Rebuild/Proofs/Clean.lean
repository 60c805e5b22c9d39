import Rebuild.Clean
import Rebuild.Proofs.FileTree.Removal
import Rebuild.Proofs.Sequence
import Rebuild.Proofs.Targets.Listing

/-!
# What cleaning takes away

Cleaning removes one path after the other, and with each of them at most one file or link. So what
is gone in the end is counted once, whoever names it, and it is what the paths led to at the start:
as long as files are only taken away, no path comes to lead anywhere else. A path may come to lead
nowhere, though, and then what it led to stays: this happens if a link on the way is removed first.
-/

namespace Rebuild.Clean

open FileTree

variable {g : Graph} {targets : List String} {now : Timestamp} {here place : Place}
  {directory path : String} {rest paths : List String} {t t' : FileTree} {k : Nat} {entry : Entry}

/-! ## Removing one path after the other -/

/-- Files are removed one after the other, and what is missing is passed over. -/
inductive Removes (now : Timestamp) (here : Place) (directory : String) :
    List String → FileTree → Nat → FileTree → Prop where
  | done {t : FileTree} : Removes now here directory [] t 0 t
  | removed {path : String} {rest : List String} {t t' : FileTree} {k : Nat} {place : Place}
      {entry : Entry} : t.lookAt here (Path.join directory path) = .ok (place, entry) →
      entry.isDirectory = false → Removes now here directory rest (t.discard now place) k t' →
      Removes now here directory (path :: rest) t (1 + k) t'
  | missing {path : String} {rest : List String} {t t' : FileTree} {k : Nat} :
      t.lookAt here (Path.join directory path) = .error .missing →
      Removes now here directory rest t k t' →
      Removes now here directory (path :: rest) t (0 + k) t'

theorem remove_of_ok (hlook : t.lookAt here path = .ok (place, entry))
    (hdir : entry.isDirectory = false) : t.remove now here path = .ok (t.discard now place) := by
  rw [remove, hlook]
  cases entry with
  | directory => cases hdir
  | _ => rfl

theorem remove_of_error {fault : TreeFault} (hlook : t.lookAt here path = .error fault) :
    t.remove now here path = .error fault := by
  rw [remove, hlook]
  rfl

theorem remove_of_directory (hlook : t.lookAt here path = .ok (place, entry))
    (hdir : entry.isDirectory = true) : t.remove now here path = .error .isDirectory := by
  rw [remove, hlook]
  cases entry with
  | directory => rfl
  | _ => cases hdir

/-- Removing one file of many. -/
theorem removeAll_cons_eq_ok : removeAll now here directory (path :: rest) t = .ok k t' ↔
    ∃ removed u more, (match t.remove now here (Path.join directory path) with
      | .ok t => (.ok 1 t : EStateM.Result Error FileTree Nat)
      | .error .missing => .ok 0 t
      | .error fault => .error (.cannotRemove (Path.join directory path) fault.toIoFault) t) =
        .ok removed u ∧
      removeAll now here directory rest u = .ok more t' ∧ removed + more = k := by
  rw [removeAll]
  refine Sequence.bind_eq_ok.trans (exists_congr fun removed => exists_congr fun u => ?_)
  rw [Sequence.bind_eq_ok]
  constructor
  · rintro ⟨hremoved, more, v, hmore, hk⟩
    obtain ⟨rfl, rfl⟩ := Sequence.pure_eq_ok.mp hk
    exact ⟨more, hremoved, hmore, rfl⟩
  · rintro ⟨more, hremoved, hmore, rfl⟩
    exact ⟨hremoved, more, t', hmore, rfl⟩

/-- Removing succeeds in this way only. -/
theorem removeAll_eq_ok : removeAll now here directory paths t = .ok k t' ↔
    Removes now here directory paths t k t' := by
  induction paths generalizing t k with
  | nil =>
    rw [removeAll, Sequence.pure_eq_ok]
    constructor
    · rintro ⟨rfl, rfl⟩
      exact .done
    · rintro ⟨⟩
      exact ⟨rfl, rfl⟩
  | cons path rest ih =>
    rw [removeAll_cons_eq_ok]
    constructor
    · rintro ⟨removed, u, more, hremoved, hmore, rfl⟩
      cases hlook : t.lookAt here (Path.join directory path) with
      | ok found =>
        obtain ⟨place, entry⟩ := found
        cases hdir : entry.isDirectory with
        | true =>
          rw [remove_of_directory hlook hdir] at hremoved
          cases hremoved
        | false =>
          rw [remove_of_ok hlook hdir] at hremoved
          cases hremoved
          exact .removed hlook hdir (ih.mp hmore)
      | error fault =>
        rw [remove_of_error hlook] at hremoved
        cases fault with
        | missing =>
          cases hremoved
          exact .missing hlook (ih.mp hmore)
        | _ => cases hremoved
    · intro h
      cases h with
      | removed hlook hdir h =>
        exact ⟨1, _, _, by rw [remove_of_ok hlook hdir], ih.mpr h, rfl⟩
      | missing hlook h => exact ⟨0, _, _, by rw [remove_of_error hlook], ih.mpr h, rfl⟩

/-- What removing files leaves: as many places are gone as it counted, each of which a path led to,
and no path leads to anything any more. -/
theorem Removes.takesAway (h : Removes now here directory paths t k t') :
    ∃ gone, TakesAway now gone t t' ∧ gone.length = k ∧
      (∀ place ∈ gone, ∃ path ∈ paths, ∃ entry,
        t.lookAt here (Path.join directory path) = .ok (place, entry)) ∧
      ∀ path ∈ paths, t'.lookAt here (Path.join directory path) = .error .missing := by
  induction h with
  | done => exact ⟨[], .refl now _, rfl, nofun, nofun⟩
  | @removed path rest t t' k place entry hlook hdir _ ih =>
    obtain ⟨gone, htakes, hlength, hnamed, hmissing⟩ := ih
    have hone := takesAway_discard now (find?_of_lookAt hlook) hdir
    refine ⟨place :: gone, hone.trans htakes, ?_, ?_, ?_⟩
    · rw [List.length_cons, hlength, Nat.add_comm]
    · refine List.forall_mem_cons.mpr ⟨⟨path, by simp, entry, hlook⟩, fun other hother => ?_⟩
      obtain ⟨path', hpath', entry', hlook'⟩ := hnamed other hother
      obtain ⟨before, hbefore⟩ := hone.fewer.lookAt_of_ok hlook'
      exact ⟨path', List.mem_cons_of_mem path hpath', before, hbefore⟩
    · refine List.forall_mem_cons.mpr ⟨?_, hmissing⟩
      exact (hone.trans htakes).fewer.missing_of_gone hlook
        (htakes.fewer.find?_none (hone.away place (by simp)))
  | @missing path rest t t' k hlook _ ih =>
    obtain ⟨gone, htakes, hlength, hnamed, hmissing⟩ := ih
    refine ⟨gone, htakes, by omega, fun place hplace => ?_,
      List.forall_mem_cons.mpr ⟨htakes.fewer.missing hlook, hmissing⟩⟩
    obtain ⟨path', hpath', hentry⟩ := hnamed place hplace
    exact ⟨path', List.mem_cons_of_mem path hpath', hentry⟩

theorem removes_of_missing
    (h : ∀ path ∈ paths, t.lookAt here (Path.join directory path) = .error .missing) :
    Removes now here directory paths t 0 t := by
  induction paths with
  | nil => exact .done
  | cons path rest ih =>
    obtain ⟨hpath, hrest⟩ := List.forall_mem_cons.mp h
    exact .missing hpath (ih hrest)

/-! ## The paths that are removed -/

/-- The edges that are cleaned: all of them, or those that the targets depend on. -/
def Chosen (g : Graph) (targets : List String) (id : EdgeId) : Prop :=
  if targets.isEmpty then id < g.edges.size
  else ∃ nodes, Targets.resolve g targets = .ok nodes ∧ g.Reached nodes id

/-- A path of an edge: an output, or its response file or dependency file. -/
def IsPathOf (g : Graph) (id : EdgeId) (path : String) : Prop :=
  path ∈ g.paths (g.edge id).outs ∨ ∃ name ∈ ["rspfile", "depfile"],
    g.edgeVar id name ≠ "" ∧ path = Path.canonical (g.edgeVar id name)

/-- A path that is built for the targets. Phony edges make nothing, and what a generator makes is
kept. -/
def IsBuilt (g : Graph) (targets : List String) (path : String) : Prop :=
  ∃ id, Chosen g targets id ∧ (g.edge id).isPhony = false ∧ g.edgeFlag id "generator" = false ∧
    IsPathOf g id path

theorem mem_extraPaths {id : EdgeId} : path ∈ extraPaths g id ↔ ∃ name ∈ ["rspfile", "depfile"],
    g.edgeVar id name ≠ "" ∧ path = Path.canonical (g.edgeVar id name) := by
  simp only [extraPaths, List.mem_map, List.mem_filter, decide_eq_true_eq]
  constructor
  · rintro ⟨_, ⟨⟨name, hname, rfl⟩, hne⟩, rfl⟩
    exact ⟨name, hname, hne, rfl⟩
  · rintro ⟨name, hname, hne, rfl⟩
    exact ⟨_, ⟨⟨name, hname, rfl⟩, hne⟩, rfl⟩

theorem mem_paths {ids : List EdgeId} : path ∈ Clean.paths g ids ↔
    ∃ id ∈ ids, (g.edge id).isPhony = false ∧ g.edgeFlag id "generator" = false ∧
      IsPathOf g id path := by
  simp only [Clean.paths, List.mem_flatMap, List.mem_filter, isCleaned, Bool.and_eq_true,
    Bool.not_eq_true', List.mem_append, mem_extraPaths, IsPathOf, and_assoc]

theorem mem_edges_iff (hg : ∀ n e, (g.node n).producer = some e → e < g.edges.size)
    {ids : List EdgeId} (hids : edges g targets = .ok ids) (id : EdgeId) :
    id ∈ ids ↔ Chosen g targets id := by
  unfold edges at hids
  unfold Chosen
  by_cases hall : targets.isEmpty = true
  · rw [if_pos hall] at hids ⊢
    cases hids
    exact List.mem_range
  · rw [if_neg hall] at hids ⊢
    cases hresolve : Targets.resolve g targets with
    | error e =>
      rw [hresolve] at hids
      cases hids
    | ok nodes =>
      rw [hresolve] at hids
      cases hids
      rw [Reach.mem_edges_iff hg]
      exact ⟨fun h => ⟨nodes, rfl, h⟩, fun ⟨_, hnodes, h⟩ => by cases hnodes; exact h⟩

theorem run_eq_ok : run g targets now here directory t = .ok k t' ↔
    ∃ ids, edges g targets = .ok ids ∧
      Removes now here directory (Clean.paths g ids) t k t' := by
  refine Sequence.bind_eq_ok.trans ?_
  cases hids : edges g targets with
  | error e =>
    refine iff_of_false ?_ (by simp)
    rintro ⟨_, _, h, _⟩
    cases h
  | ok ids =>
    constructor
    · rintro ⟨_, _, h, hremove⟩
      cases h
      exact ⟨ids, rfl, removeAll_eq_ok.mp hremove⟩
    · rintro ⟨_, h, hremove⟩
      cases h
      exact ⟨ids, t, rfl, removeAll_eq_ok.mpr hremove⟩

theorem isBuilt_iff (hg : ∀ n e, (g.node n).producer = some e → e < g.edges.size)
    {ids : List EdgeId} (hids : edges g targets = .ok ids) (path : String) :
    IsBuilt g targets path ↔ path ∈ Clean.paths g ids := by
  rw [mem_paths]
  exact exists_congr fun id => and_congr_left fun _ => (mem_edges_iff hg hids id).symm

/-! ## Cleaning -/

/-- If cleaning succeeds, as many places are gone as it says, all of which a path that is built led
to, and nothing else is changed. Everything is gone to which such a path led, unless a link on the
way to it is gone, too. Cleaning again, whenever that is, removes nothing and changes nothing. -/
theorem run_takes_away (hg : ∀ n e, (g.node n).producer = some e → e < g.edges.size)
    (h : run g targets now here directory t = .ok k t') :
    ∃ gone, TakesAway now gone t t' ∧ gone.length = k ∧
      (∀ place ∈ gone, ∃ path entry, IsBuilt g targets path ∧
        t.lookAt here (Path.join directory path) = .ok (place, entry)) ∧
      (∀ path place entry, IsBuilt g targets path →
        t.lookAt here (Path.join directory path) = .ok (place, entry) →
        place ∈ gone ∨ ∃ link ∈ t.linksTo here (Path.join directory path), link ∈ gone) ∧
      ∀ later, run g targets later here directory t' = .ok 0 t' := by
  obtain ⟨ids, hids, hremoves⟩ := run_eq_ok.mp h
  obtain ⟨gone, htakes, hlength, hnamed, hmissing⟩ := hremoves.takesAway
  refine ⟨gone, htakes, hlength, fun place hplace => ?_, fun path place entry hpath hlook => ?_,
    fun later => run_eq_ok.mpr ⟨ids, hids, removes_of_missing hmissing⟩⟩
  · obtain ⟨path, hpath, entry, hlook⟩ := hnamed place hplace
    exact ⟨path, entry, (isBuilt_iff hg hids path).mpr hpath, hlook⟩
  · have hpath := hmissing path ((isBuilt_iff hg hids path).mp hpath)
    refine (htakes.fewer.gone_or_link_gone hlook hpath).imp (fun hnone => ?_) ?_
    · exact htakes.mem_of_none (find?_of_lookAt hlook) hnone
    · rintro ⟨link, hlink, hnone⟩
      obtain ⟨target, htarget⟩ := find?_of_mem_linksOn hlink
      exact ⟨link, hlink, htakes.mem_of_none htarget hnone⟩

/-- A link to a directory is made, and a file is copied behind the link. -/
def linked : Graph where
  scopes := .initial
  nodes := #[⟨"d", some 0, [1], [], false⟩, ⟨"d/x", some 1, [], [], false⟩]
  edges := #[⟨.rule 0, none, Scopes.root, [0], [], [], [], [], [], none⟩,
    ⟨.rule 1, none, Scopes.root, [1], [], [], [0], [], [], none⟩]
  rules := #[⟨"link", ∅⟩, ⟨"copy", ∅⟩]
  pools := #[]
  defaults := []

/-- What there is when both were made. -/
def linkedTree : FileTree where
  entries := [([], .directory 1 0o755), (["w"], .directory 4 0o755),
    (["w", "dir"], .directory 5 0o755), (["w", "dir", "x"], .file 0), (["w", "d"], .link "dir")]
  bodies := default

theorem producer_lt_linked (n : NodeId) (e : EdgeId) (h : (linked.node n).producer = some e) :
    e < linked.edges.size := by
  have hall : ∀ n ∈ linked.nodeIds, ∀ e ∈ (linked.node n).producer, e < linked.edges.size := by
    decide +kernel
  exact hall n (List.mem_range.mpr (Graph.lt_of_producer h)) e h

theorem isBuilt_linked (id : EdgeId) (hid : id ∈ linked.edgeIds)
    (hpath : path ∈ linked.paths (linked.edge id).outs) : IsBuilt linked [] path := by
  have hall : ∀ id ∈ linked.edgeIds, (linked.edge id).isPhony = false ∧
      linked.edgeFlag id "generator" = false := by decide +kernel
  exact ⟨id, List.mem_range.mp hid, (hall id hid).1, (hall id hid).2, .inl hpath⟩

theorem pathFault?_linked : pathFault? "/w/d" = none ∧ pathFault? "/w/d/x" = none := by
  unfold pathFault?
  exact ⟨by rw [if_neg (by decide), if_neg (by decide), if_neg (by decide)],
    by rw [if_neg (by decide), if_neg (by decide), if_neg (by decide)]⟩

/-- The link is gone, and the file behind it, which its path does not lead to any more, stays. -/
theorem run_takes_away_linked : ∃ t', run linked [] 9 [] "/w" linkedTree = .ok 1 t' ∧
    IsBuilt linked [] "d/x" ∧
    linkedTree.lookAt [] (Path.join "/w" "d/x") = .ok (["w", "dir", "x"], .file 0) ∧
    TakesAway 9 [["w", "d"]] linkedTree t' ∧ t'.find? ["w", "dir", "x"] = some (.file 0) ∧
    run linked [] 12 [] "/w" t' = .ok 0 t' := by
  have hjoin : Path.join "/w" "d" = "/w/d" ∧ Path.join "/w" "d/x" = "/w/d/x" := ⟨by cbv, by cbv⟩
  have hlook : linkedTree.lookAt [] "/w/d" = .ok (["w", "d"], .link "dir") :=
    (lookAt_of_walk pathFault?_linked.1 (by cbv)).trans (by cbv)
  have hlook' : linkedTree.lookAt [] "/w/d/x" = .ok (["w", "dir", "x"], .file 0) :=
    (lookAt_of_walk pathFault?_linked.2 (by cbv)).trans (by cbv)
  have hmissing : (linkedTree.discard 9 ["w", "d"]).lookAt [] "/w/d/x" = .error .missing :=
    lookAt_of_walk_error pathFault?_linked.2 (by cbv)
  have hpaths : Clean.paths linked [0, 1] = ["d", "d/x"] := by cbv
  have hrun : run linked [] 9 [] "/w" linkedTree = .ok 1 (linkedTree.discard 9 ["w", "d"]) := by
    refine run_eq_ok.mpr ⟨[0, 1], rfl, hpaths ▸ .removed (k := 0) (hjoin.1 ▸ hlook) rfl ?_⟩
    exact .missing (k := 0) (hjoin.2 ▸ hmissing) .done
  obtain ⟨gone, htakes, hlength, -, hgone, hagain⟩ := run_takes_away producer_lt_linked hrun
  -- nothing but the link stands in the way of the link
  have hlinks : linkedTree.linksTo [] "/w/d" = [] := by cbv
  have hbuilt : IsBuilt linked [] "d" := isBuilt_linked 0 (by decide) (by decide)
  have hbuilt' : IsBuilt linked [] "d/x" := isBuilt_linked 1 (by decide) (by decide)
  have hlink : ["w", "d"] ∈ gone :=
    (hgone "d" _ _ hbuilt (hjoin.1 ▸ hlook)).resolve_right (by simp [hjoin.1, hlinks])
  obtain ⟨place, rfl⟩ := List.length_eq_one_iff.mp hlength
  obtain rfl := List.mem_singleton.mp hlink
  refine ⟨_, hrun, hbuilt', hjoin.2 ▸ hlook', htakes, ?_, hagain 12⟩
  rcases htakes.others ["w", "dir", "x"] (by decide) with hsame | ⟨-, _, _, hbefore, -⟩
  · rw [hsame]
    rfl
  · cases hbefore

end Rebuild.Clean
