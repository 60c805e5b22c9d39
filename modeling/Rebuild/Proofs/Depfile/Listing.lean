import Rebuild.Proofs.Depfile.Growth

/-!
# What a dependency file lists

The dependency file of an edge lists its dependencies if it can be read and its first output is one
of the edge. Loading takes in what is listed: these files are inputs afterwards, and a graph whose
links agree keeps them so.
-/

namespace Rebuild.Depfile

variable {id : EdgeId} {g g' : Graph} {added : List NodeId}

/-- The outcome of loading, given what is read. Nothing happens without a dependency file or if it
names no output. -/
theorem load_eq (files : FileView) (g : Graph) (id : EdgeId) :
    load files g id =
      if g.edgeVar id "depfile" = "" then .ok g
      else (read files (Path.canonical (g.edgeVar id "depfile"))).bind fun depfile =>
        match depfile.outputs with
        | [] => .ok g
        | output :: _ =>
          if output ∈ g.paths (g.edge id).outs then .ok (depfile.deps.foldl (addDep id) g)
          else .error (.depfileMissingOutputs (Path.canonical (g.edgeVar id "depfile"))
            (g.paths (g.edge id).outs) output) := by
  unfold load
  dsimp only
  by_cases hvar : g.edgeVar id "depfile" = ""
  · rw [if_pos hvar, if_pos hvar]; rfl
  rw [if_neg hvar, if_neg hvar]
  cases read files (Path.canonical (g.edgeVar id "depfile")) with
  | error e => rfl
  | ok depfile =>
    change (match depfile.outputs with | [] => _ | output :: _ => _) = _
    simp only [Except.bind]
    cases depfile.outputs with
    | nil => rfl
    | cons output rest =>
      by_cases hmem : output ∈ g.paths (g.edge id).outs
      · simp [hmem, pure, Except.pure]
      · simp [hmem, throw, throwThe, MonadExceptOf.throw, bind, Except.bind]

/-- An edge with outputs is an edge of the graph. -/
theorem lt_of_mem_outs {g : Graph} {id : EdgeId} {path : String}
    (h : path ∈ g.paths (g.edge id).outs) : id < g.edges.size := by
  by_contra hlt
  rw [Graph.edge_of_size_le (Nat.le_of_not_lt hlt)] at h
  simp [Graph.paths] at h

/-- An edge has a dependency file that can be loaded, and it lists a path. -/
def Lists (files : FileView) (g : Graph) (id : EdgeId) (path : String) : Prop :=
  g.edgeVar id "depfile" ≠ "" ∧ ∃ depfile output rest,
    read files (Path.canonical (g.edgeVar id "depfile")) = .ok depfile ∧
      depfile.outputs = output :: rest ∧ output ∈ g.paths (g.edge id).outs ∧ path ∈ depfile.deps

/-- What the dependency file of an edge lists are inputs of the edge. -/
def Heeded (files : FileView) (g : Graph) (id : EdgeId) : Prop :=
  ∀ path, Lists files g id path → ∃ n, g.findNode? path = some n ∧ n ∈ (g.edge id).ins

section Lists

variable {files : FileView}

theorem lists_congr (hg : g.Grows g') (h : g.Linked) (path : String) :
    Lists files g' id path ↔ Lists files g id path := by
  unfold Lists
  rw [hg.edgeVar, hg.paths_outs h]

/-- A dependency file that names an output of the edge first is loaded. -/
theorem load_ok {depfile : Depfile} {output : String} {rest : List String}
    (hvar : g.edgeVar id "depfile" ≠ "")
    (hread : read files (Path.canonical (g.edgeVar id "depfile")) = .ok depfile)
    (houtputs : depfile.outputs = output :: rest) (hout : output ∈ g.paths (g.edge id).outs) :
    load files g id = .ok (depfile.deps.foldl (addDep id) g) := by
  rw [load_eq, if_neg hvar, hread, Except.bind, houtputs]
  exact if_pos hout

theorem Heeded.grows (hheeded : Heeded files g id) (hg : g.Grows g') (h : g.Linked) :
    Heeded files g' id := by
  intro path hlists
  obtain ⟨n, hfind, hn⟩ := hheeded path ((lists_congr hg h path).mp hlists)
  exact ⟨n, hg.findNode? hfind, hg.ins_subset id hn⟩

/-- All dependencies that the dependency file of an edge lists, in order; none if it cannot be
loaded. -/
def listed (files : FileView) (g : Graph) (id : EdgeId) : List String :=
  if g.edgeVar id "depfile" = "" then []
  else match read files (Path.canonical (g.edgeVar id "depfile")) with
    | .error _ => []
    | .ok depfile => match depfile.outputs with
      | [] => []
      | output :: _ => if output ∈ g.paths (g.edge id).outs then depfile.deps else []

theorem mem_listed (path : String) : path ∈ listed files g id ↔ Lists files g id path := by
  unfold listed Lists
  split
  · next hvar => simp [hvar]
  · next hvar =>
    cases read files (Path.canonical (g.edgeVar id "depfile")) with
    | error e => simp
    | ok depfile =>
      dsimp only
      split
      · next houtputs => simp [houtputs]
      · next output rest houtputs =>
        by_cases hmem : output ∈ g.paths (g.edge id).outs <;> simp [hvar, houtputs, hmem]

/-- Only what is an edge of the graph has anything listed. -/
theorem lt_of_listed {path : String} (h : path ∈ listed files g id) : id < g.edges.size := by
  obtain ⟨-, _, _, _, -, -, hout, -⟩ := (mem_listed path).mp h
  exact lt_of_mem_outs hout

/-- Loading adds what the dependency file lists. -/
theorem load_eq_listed (files : FileView) (g : Graph) (id : EdgeId) :
    load files g id = .ok ((listed files g id).foldl (addDep id) g) ∨
      listed files g id = [] ∧ ∃ e, load files g id = .error e := by
  rw [load_eq]
  unfold listed
  split
  · exact .inl rfl
  · cases read files (Path.canonical (g.edgeVar id "depfile")) with
    | error e => exact .inr ⟨rfl, e, rfl⟩
    | ok depfile =>
      simp only [Except.bind]
      cases depfile.outputs with
      | nil => exact .inl rfl
      | cons output rest =>
        by_cases hmem : output ∈ g.paths (g.edge id).outs
        · exact .inl (by simp only [if_pos hmem])
        · exact .inr ⟨if_neg hmem, _, if_neg hmem⟩

theorem foldl_listed_takesIn (files : FileView) (g : Graph) (id : EdgeId) :
    ∃ added, TakesIn id (listed files g id) added g
      ((listed files g id).foldl (addDep id) g) := by
  cases hlisted : listed files g id with
  | nil => exact ⟨[], .refl id g⟩
  | cons path rest => exact foldl_addDep_takesIn (lt_of_listed (hlisted ▸ List.mem_cons_self)) _

theorem load_takesIn (hload : load files g id = .ok g') :
    ∃ added, TakesIn id (listed files g id) added g g' := by
  rcases load_eq_listed files g id with hlisted | ⟨-, e, herror⟩
  · obtain rfl := Except.ok.inj (hlisted.symm.trans hload)
    exact foldl_listed_takesIn files g id
  · rw [herror] at hload
    cases hload

/-- A dependency file that cannot be loaded lists nothing. -/
theorem not_lists_of_error {e : Error} (hload : load files g id = .error e) (path : String) :
    ¬Lists files g id path := by
  rintro ⟨hvar, depfile, output, rest, hread, houtputs, hout, -⟩
  rw [load_ok hvar hread houtputs hout] at hload
  cases hload

end Lists

/-! ## Linked graphs -/

/-- A dependency file is loaded for an edge. -/
structure Adds (id : EdgeId) (g g' : Graph) : Prop where
  grows : g.Grows g'
  linked : g'.Linked
  others : ∀ e, e ≠ id → g'.edge e = g.edge e

theorem Adds.refl (h : g.Linked) (id : EdgeId) : Adds id g g :=
  ⟨.refl g, h, fun _ _ => rfl⟩

theorem Inserts.adds (h : Inserts id added g g') (hg : g.Linked) : Adds id g g' :=
  ⟨h.toGrows, h.linked hg, h.others⟩

/-- Loading dependencies one after the other makes all of them inputs. -/
theorem foldl_addDep_adds (h : g.Linked) (hid : id < g.edges.size) (deps : List String) :
    Adds id g (deps.foldl (addDep id) g) ∧
      ∀ path ∈ deps, ∃ n, (deps.foldl (addDep id) g).findNode? path = some n ∧
        n ∈ ((deps.foldl (addDep id) g).edge id).ins := by
  obtain ⟨added, htakes⟩ := foldl_addDep_takesIn hid deps
  exact ⟨htakes.adds h, htakes.inputs⟩

theorem load_adds {files : FileView} (h : g.Linked) (hload : load files g id = .ok g') :
    Adds id g g' := by
  obtain ⟨added, htakes⟩ := load_takesIn hload
  exact htakes.adds h

/-- The paths of the inputs are those from before and the dependencies. -/
theorem TakesIn.mem_paths_ins {deps : List String} (h : TakesIn id deps added g g')
    (hg : g.Linked) (path : String) :
    path ∈ g'.paths (g'.edge id).ins ↔ path ∈ g.paths (g.edge id).ins ∨ path ∈ deps := by
  constructor
  · intro hmem
    obtain ⟨n, hn, hpath⟩ := Graph.mem_paths.mp hmem
    rcases h.mem_ins_iff.mp hn with hold | hnew
    · exact .inl (Graph.mem_paths.mpr ⟨n, hold, (h.path n (hg.lt_of_in hold)) ▸ hpath⟩)
    · exact .inr (h.order.subset (Graph.mem_paths.mpr ⟨n, hnew, hpath⟩))
  · rintro (hold | hdep)
    · rw [← h.paths_ins hg] at hold
      exact List.map_subset _ (h.ins_subset id) hold
    · obtain ⟨n, hfind, hn⟩ := h.inputs path hdep
      exact Graph.mem_paths.mpr ⟨n, hn, (Graph.findNode?_eq_some hfind).2⟩

/-- Loading makes inputs of what the dependency file lists, and of nothing else. -/
theorem mem_paths_load {files : FileView} (h : g.Linked) (hload : load files g id = .ok g')
    (path : String) : path ∈ g'.paths (g'.edge id).ins ↔
      path ∈ g.paths (g.edge id).ins ∨ Lists files g id path := by
  obtain ⟨added, htakes⟩ := load_takesIn hload
  rw [htakes.mem_paths_ins h, mem_listed]

end Rebuild.Depfile
