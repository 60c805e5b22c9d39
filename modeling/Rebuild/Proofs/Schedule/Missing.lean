import Mathlib.Data.List.Nodup
import Rebuild.Proofs.Scan.Outcome
import Rebuild.Proofs.Schedule.Need

/-!
# Missing files

Targets cannot be added to a schedule if something that they ask for does not exist and nothing
makes it. The error lists exactly these files, each once, and tells what each is needed by: nothing,
if the walk met the file as a target, and otherwise a file that is made from it.
-/

namespace Rebuild.Schedule

/-- What targets ask for: the targets, and what goes into the edges that they need. -/
inductive Asked (g : Graph) (survey : Survey) (targets : List NodeId) (n : NodeId) : Prop
  | target : n ∈ targets → Asked g survey targets n
  | input {e} : Needed g survey targets e → n ∈ (g.edge e).ins → Asked g survey targets n

/-- A file that a statement names does not exist, and nothing makes it. -/
structure Absent (files : FileView) (g : Graph) (n : NodeId) : Prop where
  producer : (g.node n).producer = none
  named : (g.node n).fromDepfile = false
  file : files.stat (g.node n).path = .ok none

/-- A file is a target, and goes into no edge that the targets before it need. -/
def TargetFirst (g : Graph) (survey : Survey) (targets : List NodeId) (n : NodeId) : Prop :=
  ∃ before after, targets = before ++ n :: after ∧
    ∀ e, Needed g survey before e → n ∉ (g.edge e).ins

/-- A file goes into a needed edge, of which `dependent` is the path of an output. -/
def NeededFor (g : Graph) (survey : Survey) (targets : List NodeId) (n : NodeId)
    (dependent : String) : Prop :=
  ∃ d e, (g.node d).path = dependent ∧ (g.node d).producer = some e ∧
    Needed g survey targets e ∧ n ∈ (g.edge e).ins

/-- What an error tells a missing file to be needed by. -/
inductive Reason (g : Graph) (survey : Survey) (targets : List NodeId) (n : NodeId) :
    Option String → Prop
  | target : TargetFirst g survey targets n → Reason g survey targets n none
  | input {dependent} : ¬TargetFirst g survey targets n → NeededFor g survey targets n dependent →
    Reason g survey targets n (some dependent)

/-- A list of the files that are absent though targets ask for them, each once. -/
structure Reports (files : FileView) (g : Graph) (survey : Survey) (targets : List NodeId)
    (missing : List MissingInput) : Prop where
  once : (missing.map (·.path)).Nodup
  complete : ∀ n, Asked g survey targets n → Absent files g n →
    (g.node n).path ∈ missing.map (·.path)
  sound : ∀ m ∈ missing, ∃ n, (g.node n).path = m.path ∧ Asked g survey targets n ∧
    Absent files g n ∧ Reason g survey targets n m.neededBy

/-! ## More targets -/

section Targets

variable {g : Graph} {survey : Survey} {targets more : List NodeId} {n : NodeId}

theorem Needed.mono {e : EdgeId} (h : Needed g survey targets e) (hmore : targets ⊆ more) :
    Needed g survey more e := by
  induction h with
  | target hn hp hready => exact .target (hmore hn) hp hready
  | input _ hn hp hready ih => exact .input ih hn hp hready

theorem NeededFor.mono {dependent : String} (h : NeededFor g survey targets n dependent)
    (hmore : targets ⊆ more) : NeededFor g survey more n dependent := by
  obtain ⟨d, e, hpath, hp, he, hn⟩ := h
  exact ⟨d, e, hpath, hp, he.mono hmore, hn⟩

theorem TargetFirst.append (h : TargetFirst g survey targets n) (more : List NodeId) :
    TargetFirst g survey (targets ++ more) n := by
  obtain ⟨before, after, rfl, hbefore⟩ := h
  exact ⟨before, after ++ more, by simp, hbefore⟩

theorem targetFirst_append_singleton {m : NodeId} (h : TargetFirst g survey (targets ++ [m]) n) :
    TargetFirst g survey targets n ∨
      n = m ∧ ∀ e, Needed g survey targets e → n ∉ (g.edge e).ins := by
  obtain ⟨before, after, heq, hbefore⟩ := h
  rcases List.eq_nil_or_concat' after with rfl | ⟨after, last, rfl⟩
  · obtain ⟨rfl, hm⟩ := List.append_inj' heq rfl
    exact .inr ⟨(List.singleton_inj.mp hm).symm, hbefore⟩
  · rw [← List.cons_append, ← List.append_assoc] at heq
    exact .inl ⟨before, after, (List.append_inj' heq rfl).1, hbefore⟩

/-- Targets that come later leave the reason as it is. -/
theorem Reason.append_singleton {needer : Option String} (h : Reason g survey targets n needer)
    (m : NodeId) : Reason g survey (targets ++ [m]) n needer := by
  cases h with
  | target hfirst => exact .target (hfirst.append _)
  | input hnot hfor =>
    refine .input (fun hfirst => ?_) (hfor.mono (List.subset_append_left _ _))
    obtain ⟨-, e, -, -, he, hn⟩ := hfor
    rcases targetFirst_append_singleton hfirst with hfirst | ⟨-, hall⟩
    · exact hnot hfirst
    · exact hall e he hn

theorem Reason.asked {needer : Option String} (h : Reason g survey targets n needer) :
    Asked g survey targets n := by
  cases h with
  | target hfirst =>
    obtain ⟨before, after, rfl, -⟩ := hfirst
    exact .target (by simp)
  | input _ hfor =>
    obtain ⟨-, e, -, -, he, hn⟩ := hfor
    exact .input he hn

end Targets

section Missing

variable {src : Scan.Sources} {found : Scan} {s t u : Schedule} {targets : List NodeId}

/-! ## Everything missing is noted -/

/-- What goes into registered edges was seen to. -/
def Attended (found : Scan) (s : Schedule) : Prop :=
  ∀ e, (s.phase e).isSome → ∀ n ∈ (found.graph.edge e).ins, SeenTo found s n

theorem Attended.start (found : Scan) : Attended found (Schedule.start found.survey) := by
  intro e he
  rw [show (Schedule.start found.survey).phase e = none from Table.get_default e] at he
  cases he

theorem Registers.attended {need : EdgeId → Prop} (h : Registers src found need s t)
    (hs : Planned src found s) (hins : Attended found s) : Attended found t := by
  intro e he n hn
  cases hphase : s.phase e with
  | none => exact (h.closed e hphase he).2 n hn
  | some phase => exact h.seenTo hs (hins e (by rw [hphase]; rfl) n hn)

/-- Needed edges were scanned, and all that goes into them. -/
theorem Asked.known (hsound : Scan.Sound src found) (hknown : ∀ n ∈ targets, found.Known n)
    {n : NodeId} (hn : Asked found.graph found.survey targets n) : found.Known n := by
  have hdone : ∀ e, Needed found.graph found.survey targets e → found.visitOf e = .done := by
    intro e he
    induction he with
    | target hn hp _ => exact (Scan.known_of_producer hp).mp (hknown _ hn)
    | input _ hn hp _ ih =>
      exact (Scan.known_of_producer hp).mp ((hsound.settled _ ih).known _ hn)
  cases hn with
  | target hn => exact hknown n hn
  | input he hn => exact (hsound.settled _ (hdone _ he)).known n hn

/-- What targets ask for is noted if it is missing. -/
theorem noted_of_asked (hsound : Scan.Sound src found) (hknown : ∀ n ∈ targets, found.Known n)
    (hs : Planned src found s) (hins : Attended found s) {n : NodeId}
    (hn : Asked found.graph found.survey targets n) (hlacking : Lacking found n) :
    Noted found (s.wantAll found.graph targets) n := by
  obtain ⟨hreg, hseen⟩ := wantAll_registers hsound (fun _ => id) hknown hs
  have hins := hreg.attended hs hins
  generalize s.wantAll found.graph targets = t at hreg hseen hins
  cases hn with
  | target hn => exact (hseen n hn).noted hlacking
  | input he hn =>
    rw [← hreg.planned.survey] at he
    have hsome := he.isSome (fun n hn => (hseen n hn).covered)
      fun d hd n hn => (hins d hd n hn).covered
    exact (hins _ hsome n hn).noted hlacking

/-! ## Everything noted is missing -/

/-- What was noted since: missing files that were not noted before, each once and with a reason. -/
structure Explains (found : Scan) (why : NodeId → Option String → Prop) (s t : Schedule) :
    Prop where
  once : (s.missing.map (·.path)).Nodup → (t.missing.map (·.path)).Nodup
  kept : s.missing ⊆ t.missing
  new : ∀ m ∈ t.missing, m ∈ s.missing ∨ ∃ n, (found.graph.node n).path = m.path ∧
    Lacking found n ∧ ¬Noted found s n ∧ why n m.neededBy

namespace Explains

variable {why why' : NodeId → Option String → Prop}

theorem of_eq (h : t.missing = s.missing) : Explains found why s t := by
  refine ⟨?_, ?_, fun m hm => .inl (h ▸ hm)⟩
  · rw [h]
    exact id
  · rw [h]
    exact List.Subset.refl _

theorem trans (h : Explains found why s t) (h' : Explains found why t u) :
    Explains found why s u := by
  refine ⟨h'.once ∘ h.once, List.Subset.trans h.kept h'.kept, fun m hm => ?_⟩
  rcases h'.new m hm with hm | ⟨n, hpath, hlacking, hnew, hwhy⟩
  · exact h.new m hm
  · exact .inr ⟨n, hpath, hlacking, fun hn => hnew (hn.mono h.kept), hwhy⟩

theorem imp (h : Explains found why s t)
    (hwhy : ∀ n needer, Lacking found n → why n needer → why' n needer) :
    Explains found why' s t := by
  refine ⟨h.once, h.kept, fun m hm => (h.new m hm).imp_right ?_⟩
  rintro ⟨n, hpath, hlacking, hnew, hn⟩
  exact ⟨n, hpath, hlacking, hnew, hwhy n _ hlacking hn⟩

end Explains

theorem foldl_explains {need : EdgeId → Prop} {why : NodeId → Option String → Prop}
    {w : NodeId → Schedule → Schedule} {P : NodeId → Prop} {k : Nat}
    (hwant : ∀ {n u}, P n → Planned src found u → unregisteredCount found.graph u ≤ k →
      Registers src found need u (w n u) ∧ Explains found why u (w n u))
    {ns : List NodeId} (hns : ∀ n ∈ ns, P n) (hs : Planned src found s)
    (hk : unregisteredCount found.graph s ≤ k) :
    Explains found why s (ns.foldl (fun s n => w n s) s) := by
  induction ns generalizing s with
  | nil => exact .of_eq rfl
  | cons n ns ih =>
    obtain ⟨hreg, hfirst⟩ := hwant (hns n List.mem_cons_self) hs hk
    exact hfirst.trans (ih (fun m hm => hns m (List.mem_cons_of_mem _ hm)) hreg.planned
      (Nat.le_trans hreg.unregisteredCount_le hk))

/-- Why a file is noted while `n` is wanted: it is `n` itself, or it goes into a needed edge. -/
inductive Cause (found : Scan) (targets : List NodeId) (neededBy : Option NodeId) (n : NodeId) :
    NodeId → Option String → Prop
  | itself : Cause found targets neededBy n n (neededBy.map fun d => (found.graph.node d).path)
  | input {k dependent} : k ≠ n → NeededFor found.graph found.survey targets k dependent →
    Cause found targets neededBy n k (some dependent)

/-- What is noted while a file is wanted. -/
theorem want_explains (hsound : Scan.Sound src found) {depth : Nat} {neededBy : Option NodeId}
    {n : NodeId} (hn : Wanted found targets n) (hs : Planned src found s)
    (hdepth : unregisteredCount found.graph s ≤ depth) :
    Explains found (Cause found targets neededBy n) s
      (s.want found.graph depth neededBy n) := by
  -- the depth bounds how many edges are not registered, and falls with each that is
  induction depth using Nat.strongRecOn generalizing neededBy n s with
  | ind depth ih =>
  have hcases := want_cases hsound neededBy hn.known hs hdepth
  generalize s.want found.graph depth neededBy n = t at hcases ⊢
  cases hcases with
  | leaf hp =>
    rcases needLeaf_cases hs.survey neededBy hp with ⟨hlacking, hnew, heq⟩ | ⟨-, heq⟩
    · refine ⟨fun hnodup => ?_, by rw [heq]; exact List.subset_append_left _ _, fun m hm => ?_⟩
      · rw [heq, List.map_append]
        exact List.nodup_append_comm.mp (List.nodup_cons.mpr ⟨hnew, hnodup⟩)
      · rw [heq, List.mem_append, List.mem_singleton] at hm
        rcases hm with hm | rfl
        · exact .inl hm
        · exact .inr ⟨n, rfl, hlacking, hnew, .itself⟩
    · exact .of_eq heq
  | covered => exact .of_eq rfl
  | @inward depth e hp hdone hready hphase =>
    have henters := hn.enters hsound hs hp hdone hready hphase
    have hfewer := Nat.le_of_lt_succ (Nat.lt_of_lt_of_le henters.fewer hdepth)
    refine (Explains.of_eq henters.missing).trans (foldl_explains
      (P := fun m => Wanted found targets m ∧ m ∈ (found.graph.edge e).ins)
      (fun {m u} ⟨hm, hin⟩ hu hk => ⟨(want_registers hsound hm hu hk).1,
        (ih depth (Nat.lt_succ_self depth) hm hu hk).imp ?_⟩)
      (fun m hm => ⟨henters.wanted m hm, hm⟩) henters.planned hfewer)
    -- nothing makes what is missing, so it is not `n`
    intro k needer hlacking hcause
    have hne : k ≠ n := by
      rintro rfl
      rw [hlacking.1] at hp
      cases hp
    cases hcause with
    | itself => exact .input hne ⟨n, e, rfl, hp, henters.needed, hin⟩
    | input _ hfor => exact .input hne hfor

theorem wantAll_append_singleton (g : Graph) (targets : List NodeId) (n : NodeId) (s : Schedule) :
    s.wantAll g (targets ++ [n]) = (s.wantAll g targets).want g g.edges.size none n :=
  List.foldl_append

/-- What is noted while targets are wanted, one after the other. -/
theorem wantAll_explains (hsound : Scan.Sound src found) (hknown : ∀ n ∈ targets, found.Known n)
    (hs : Planned src found s) (hins : Attended found s) (hmissing : s.missing = []) :
    ((s.wantAll found.graph targets).missing.map (·.path)).Nodup ∧
      ∀ m ∈ (s.wantAll found.graph targets).missing, ∃ n, (found.graph.node n).path = m.path ∧
        Lacking found n ∧ Reason found.graph found.survey targets n m.neededBy := by
  induction targets using List.reverseRecOn with
  | nil =>
    rw [show s.wantAll found.graph [] = s from rfl, hmissing]
    exact ⟨List.nodup_nil, by simp⟩
  | append_singleton done target ih =>
    have hleft : ∀ n ∈ done, n ∈ done ++ [target] := fun n => List.mem_append_left _
    have hdone := fun n hn => hknown n (hleft n hn)
    obtain ⟨honce, hall⟩ := ih hdone
    have hnoted := fun n => noted_of_asked (n := n) hsound hdone hs hins
    have hreg := (wantAll_registers hsound hleft hdone hs).1
    have hwanted : Wanted found (done ++ [target]) target :=
      ⟨hknown target (by simp), fun e hp hready => .target (by simp) hp hready⟩
    have hstep : Explains found (Cause found (done ++ [target]) none target)
        (s.wantAll found.graph done) (s.wantAll found.graph (done ++ [target])) := by
      rw [wantAll_append_singleton]
      exact want_explains hsound hwanted hreg.planned (found.graph.countEdges_le_size _)
    refine ⟨hstep.once honce, fun m hm => ?_⟩
    rcases hstep.new m hm with hm | ⟨n, hpath, hlacking, hnew, hcause⟩
    · obtain ⟨n, hpath, hlacking, hreason⟩ := hall m hm
      exact ⟨n, hpath, hlacking, hreason.append_singleton target⟩
    -- as it was not noted before, it was not asked for
    have hask : ¬Asked found.graph found.survey done n := fun hn => hnew (hnoted n hn hlacking)
    refine ⟨n, hpath, hlacking, ?_⟩
    generalize m.neededBy = needer at hcause
    cases hcause with
    | itself => exact .target ⟨done, [], rfl, fun e he hn => hask (.input he hn)⟩
    | input hne hfor =>
      refine .input (fun hfirst => ?_) hfor
      rcases targetFirst_append_singleton hfirst with hfirst | ⟨heq, -⟩
      · exact hask (Reason.target hfirst).asked
      · exact hne heq

end Missing

/-! ## Adding targets -/

/-- What is missing among known files. -/
theorem lacking_iff {src : Scan.Sources} {g : Graph} {scanned : List NodeId} {found : Scan}
    (hg : g.Linked) (hlt : ∀ n ∈ scanned, n < g.nodes.size)
    (hscan : Scan.Scanned src g scanned found) {n : NodeId} (hn : found.Known n) :
    Lacking found n ↔ Absent src.files found.graph n := by
  refine ⟨fun ⟨hp, hnamed, hdirty⟩ => ⟨hp, hnamed, ?_⟩, fun ⟨hp, hnamed, hfile⟩ => ⟨hp, hnamed, ?_⟩⟩
  · exact (hscan.leafRules hg hlt hp hn).dirty.mp hdirty
  · exact (hscan.leafRules hg hlt hp hn).dirty.mpr hfile

/-- Whatever was scanned, and whichever targets were added before: further targets are refused if
they ask for absent files, and only then, and the error reports these. -/
theorem missing_is_reported {src : Scan.Sources} {g : Graph} {scanned : List NodeId} {found : Scan}
    (hg : g.Linked) (hlt : ∀ n ∈ scanned, n < g.nodes.size)
    (hscan : Scan.Scanned src g scanned found) {earlier targets : List NodeId}
    (hsub : ∀ n ∈ earlier ++ targets, n ∈ scanned) {s : Schedule}
    (hearlier : (Schedule.start found.survey).addTargets found.graph earlier = .ok s) :
    ((∃ missing, s.addTargets found.graph targets = .error (.missingInputs missing)) ↔
      ∃ n, Asked found.graph found.survey targets n ∧ Absent src.files found.graph n) ∧
    ∀ missing, s.addTargets found.graph targets = .error (.missingInputs missing) →
      Reports src.files found.graph found.survey targets missing := by
  obtain ⟨hsound, hscanned⟩ := hscan.sound hg
  have hknown : ∀ n ∈ targets, found.Known n :=
    fun n hn => hscanned n (hsub n (List.mem_append_right _ hn))
  obtain ⟨rfl, hmissing⟩ := addTargets_eq_ok.mp hearlier
  have hreg := (wantAll_registers hsound (fun _ => id)
    (fun n hn => hscanned n (hsub n (List.mem_append_left _ hn))) (Planned.start src found)).1
  have hins := hreg.attended (.start src found) (.start found)
  generalize (Schedule.start found.survey).wantAll found.graph earlier = s at hmissing hreg hins
  have hs := hreg.planned
  have hreports : Reports src.files found.graph found.survey targets
      (s.wantAll found.graph targets).missing := by
    obtain ⟨honce, hall⟩ := wantAll_explains hsound hknown hs hins hmissing
    refine ⟨honce, fun n hn habsent => ?_, fun m hm => ?_⟩
    · exact noted_of_asked hsound hknown hs hins hn
        ((lacking_iff hg hlt hscan (hn.known hsound hknown)).mpr habsent)
    · obtain ⟨n, hpath, hlacking, hreason⟩ := hall m hm
      exact ⟨n, hpath, hreason.asked,
        (lacking_iff hg hlt hscan (hreason.asked.known hsound hknown)).mp hlacking, hreason⟩
  simp only [addTargets_eq_error]
  refine ⟨⟨?_, ?_⟩, ?_⟩
  · rintro ⟨missing, rfl, hne⟩
    obtain ⟨m, hm⟩ := List.exists_mem_of_ne_nil _ hne
    obtain ⟨n, -, hn, habsent, -⟩ := hreports.sound m hm
    exact ⟨n, hn, habsent⟩
  · rintro ⟨n, hn, habsent⟩
    refine ⟨_, rfl, fun hnil => ?_⟩
    have hmem := hreports.complete n hn habsent
    rw [hnil] at hmem
    cases hmem
  · rintro missing ⟨rfl, -⟩
    exact hreports

/-! ## A shared source -/

/-- Two object files from one source, a file that nothing makes, and one that is made of nothing. -/
def orphans : Graph where
  scopes := .initial
  nodes := #[⟨"lib.c", none, [0, 1], [], false⟩, ⟨"a.o", some 0, [], [], false⟩,
    ⟨"b.o", some 1, [], [], false⟩, ⟨"notes", none, [], [], false⟩,
    ⟨"stamp", some 2, [], [], false⟩]
  edges := #[⟨.rule 0, none, Scopes.root, [1], [], [0], [], [], [], none⟩,
    ⟨.rule 0, none, Scopes.root, [2], [], [], [], [0], [], none⟩,
    ⟨.rule 0, none, Scopes.root, [4], [], [], [], [], [], none⟩]
  rules := #[⟨"make", ∅⟩]
  pools := #[]
  defaults := []

/-- Nothing exists. -/
def orphanSources : Scan.Sources :=
  ⟨⟨fun _ => .ok none, fun _ => .error .missing⟩, .inMemory⟩

def orphanScan : Scan :=
  match Scan.all orphanSources [4, 3, 1, 2, 0] (.start orphans default) with
  | .ok _ found | .error _ found => found

/-- A schedule for the file that is made of nothing. -/
def orphanSchedule : Schedule :=
  (Schedule.start orphanScan.survey).wantAll orphanScan.graph [4]

/-- The source is a target as well, but was met as an input before. -/
theorem missing_is_reported_orphans :
    orphanSchedule.addTargets orphanScan.graph [3, 1, 2, 0] =
        .error (.missingInputs [⟨"notes", none⟩, ⟨"lib.c", some "a.o"⟩]) ∧
      Reports orphanSources.files orphanScan.graph orphanScan.survey [3, 1, 2, 0]
        [⟨"notes", none⟩, ⟨"lib.c", some "a.o"⟩] := by
  have hscan : Scan.all orphanSources [4, 3, 1, 2, 0] (.start orphans default) =
      .ok [] orphanScan := by cbv
  have hearlier : (Schedule.start orphanScan.survey).addTargets orphanScan.graph [4] =
      .ok orphanSchedule := by cbv
  have hrefused : orphanSchedule.addTargets orphanScan.graph [3, 1, 2, 0] =
      .error (.missingInputs [⟨"notes", none⟩, ⟨"lib.c", some "a.o"⟩]) :=
    addTargets_eq_error.mpr ⟨by cbv, by simp⟩
  exact ⟨hrefused, (missing_is_reported (by decide) (by decide) (.all .start hscan) (by decide)
    hearlier).2 _ hrefused⟩

end Rebuild.Schedule
