import Rebuild.Proofs.Scan.Coverage

/-!
# How far a scan goes

A scan comes to what is wanted and to nothing else: its targets, the inputs of edges that make what
is wanted, all outputs of such edges, and, if validations are scanned too, these. What is wanted is
settled by the graph and the dependency files before the scan starts, and does not depend on the
order of the targets. The scan fails exactly if something is in its way: a wanted file cannot be
looked at, or a wanted edge needs itself.
-/

namespace Rebuild.Scan

open Relation (ReflTransGen TransGen)

variable {src : Sources} {files : FileView} {s t u : Scan} {validating : Bool}
  {nodes nodes' : List NodeId} {e d : EdgeId}

/-! ## What is wanted -/

/-- A file has to be looked at in a scan of targets: it is one of them; or an input of an edge that
makes such a file, or made together with it; or, where validations are scanned too, a validation of
such an edge. -/
inductive Wanted (files : FileView) (s : Scan) (validating : Bool) (nodes : List NodeId) :
    String → Prop
  | target {node : NodeId} : node ∈ nodes → Wanted files s validating nodes (s.graph.node node).path
  | input {id : EdgeId} {out : NodeId} {path : String} : out ∈ (s.graph.edge id).outs →
    Wanted files s validating nodes (s.graph.node out).path → Uses files s id path →
    Wanted files s validating nodes path
  | beside {id : EdgeId} {out other : NodeId} : out ∈ (s.graph.edge id).outs →
    Wanted files s validating nodes (s.graph.node out).path → other ∈ (s.graph.edge id).outs →
    Wanted files s validating nodes (s.graph.node other).path
  | validation {id : EdgeId} {out node : NodeId} : validating → out ∈ (s.graph.edge id).outs →
    Wanted files s validating nodes (s.graph.node out).path → node ∈ (s.graph.edge id).validations →
    Wanted files s validating nodes (s.graph.node node).path

/-- An edge makes a file that is wanted. -/
def Wants (files : FileView) (s : Scan) (validating : Bool) (nodes : List NodeId) (e : EdgeId) :
    Prop :=
  ∃ out ∈ (s.graph.edge e).outs, Wanted files s validating nodes (s.graph.node out).path

/-- Something is in the way of a scan: a file that is wanted cannot be looked at, or an edge that
makes one needs itself. -/
def Blocked (src : Sources) (s : Scan) (validating : Bool) (nodes : List NodeId) : Prop :=
  (∃ path fault, Wanted src.files s validating nodes path ∧ src.files.stat path = .error fault) ∨
    ∃ e, Wants src.files s validating nodes e ∧ TransGen (Needs src.files s) e e

section Wanted

variable {path : String} {n m : NodeId}

/-- More targets want more. -/
theorem Wanted.mono (h : Wanted files s validating nodes path) (hsub : nodes ⊆ nodes') :
    Wanted files s validating nodes' path := by
  induction h with
  | target hn => exact .target (hsub hn)
  | input hout _ huses ih => exact .input hout ih huses
  | beside hm _ hout ih => exact .beside hm ih hout
  | validation hval hout _ hv ih => exact .validation hval hout ih hv

/-- What edges use is all that files have to do with what is wanted. -/
theorem Wanted.congr {files' : FileView} (h : Wanted files s validating nodes path)
    (huses : ∀ e path, Uses files s e path → Uses files' s e path) :
    Wanted files' s validating nodes path := by
  induction h with
  | target hn => exact .target hn
  | input hout _ hin ih => exact .input hout ih (huses _ _ hin)
  | beside hm _ hout ih => exact .beside hm ih hout
  | validation hval hout _ hv ih => exact .validation hval hout ih hv

theorem Wants.mono (h : Wants files s validating nodes e) (hsub : nodes ⊆ nodes') :
    Wants files s validating nodes' e := by
  obtain ⟨out, hout, hwanted⟩ := h
  exact ⟨out, hout, hwanted.mono hsub⟩

theorem Blocked.mono (h : Blocked src s validating nodes) (hsub : nodes ⊆ nodes') :
    Blocked src s validating nodes' := by
  rcases h with ⟨path, fault, hwanted, hfault⟩ | ⟨e, hwants, hcircle⟩
  · exact .inl ⟨path, fault, hwanted.mono hsub, hfault⟩
  · exact .inr ⟨e, hwants.mono hsub, hcircle⟩

/-- What is needed for something wanted is wanted. -/
theorem Wants.needs (hs : s.graph.Linked) (h : Wants files s validating nodes e)
    (hneeds : ReflTransGen (Needs files s) e d) : Wants files s validating nodes d := by
  induction hneeds with
  | refl => exact h
  | tail _ hstep ih =>
    obtain ⟨path, n, huses, hfind, hprod⟩ := hstep
    obtain ⟨out, hout, hwanted⟩ := ih
    obtain ⟨-, rfl⟩ := Graph.findNode?_eq_some hfind
    exact ⟨n, (hs.producer_iff n _).mp hprod, .input hout hwanted huses⟩

/-- What makes a wanted file in the course of a scan makes one before. -/
theorem Course.wants_of_producer (h : Course src s t) (hs : s.graph.Linked)
    (hm : Wanted src.files s validating nodes (t.graph.node m).path)
    (hprod : (t.graph.node m).producer = some e) : Wants src.files s validating nodes e := by
  have hgrows := h.grows hs
  rw [hgrows.producer] at hprod
  rw [hgrows.path m (Graph.lt_of_producer hprod)] at hm
  exact ⟨m, (hs.producer_iff m e).mp hprod, hm⟩

/-- What a wanted file is made from in the course of a scan is wanted. -/
theorem Course.wanted_of_madeFrom (h : Course src s t) (hs : s.graph.Linked)
    (hn : Wanted src.files s validating nodes (t.graph.node n).path)
    (hmade : ReflTransGen t.graph.MadeFrom n m) :
    Wanted src.files s validating nodes (t.graph.node m).path := by
  induction hmade with
  | refl => exact hn
  | tail _ hstep ih =>
    obtain ⟨e, hprod, hin⟩ := hstep
    obtain ⟨out, hout, hwanted⟩ := h.wants_of_producer hs ih hprod
    refine .input hout hwanted ((h.uses_iff hs e _).mp (.inl ?_))
    exact Graph.mem_paths.mpr ⟨_, hin, rfl⟩

end Wanted

/-! ## Scans that keep to what is wanted -/

/-- Nothing was looked at yet. -/
structure Fresh (s : Scan) : Prop where
  linked : s.graph.Linked
  edges : ∀ e, s.visitOf e = .unvisited
  nodes : ∀ n, ¬(s.survey.node n).isStatted
  validations : s.validations = []

theorem Fresh.start {g : Graph} (hg : g.Linked) : (Scan.start g default).Fresh where
  linked := hg
  edges e := congrArg EdgeState.visit (Table.get_default e)
  nodes n := by
    rw [show (Scan.start g default).survey.node n = default from Table.get_default n]
    decide
  validations := rfl

/-- A scan has come from one state to another between targets, and has looked only at what they
want. -/
structure Explores (src : Sources) (validating : Bool) (s : Scan) (nodes : List NodeId) (t : Scan) :
    Prop where
  course : Course src s (s.adopt t)
  between : ∀ e, t.visitOf e ≠ .inProgress
  edge : ∀ e, t.visitOf e = .done → Wants src.files s validating nodes e
  leaf : ∀ n, (t.graph.node n).producer = none → (t.survey.node n).isStatted →
    Wanted src.files s validating nodes (t.graph.node n).path

section Explores

variable {n : NodeId}

theorem Explores.refl (src : Sources) (hs : s.Fresh) (nodes : List NodeId) :
    Explores src validating s nodes s where
  course := .refl
  between e := by rw [hs.edges]; simp
  edge e he := by rw [hs.edges] at he; cases he
  leaf n _ hstat := absurd hstat (hs.nodes n)

theorem Explores.congr (h : Explores src validating s nodes t) (hgraph : u.graph = t.graph)
    (hsurvey : u.survey = t.survey) : Explores src validating s nodes u := by
  obtain ⟨g, survey, _, _⟩ := t
  obtain ⟨g', survey', _, _⟩ := u
  cases hgraph
  cases hsurvey
  exact ⟨h.course, h.between, h.edge, h.leaf⟩

/-- Whatever was scanned between targets, no edge is left open. -/
theorem Onward.between (h : Onward none t u) (ht : ∀ e, t.visitOf e ≠ .inProgress) (e : EdgeId) :
    u.visitOf e ≠ .inProgress := by
  cases hbefore : t.visitOf e with
  | unvisited => exact h.finished e (by simp) hbefore
  | inProgress => exact absurd hbefore (ht e)
  | done => rw [h.visitOf_done (by simp) hbefore]; simp

/-- Between targets a scan is done with the edges that it has come to. -/
theorem done_of_visited (ht : ∀ e, t.visitOf e ≠ .inProgress) (he : t.visitOf e ≠ .unvisited) :
    t.visitOf e = .done := by
  cases hvisit : t.visitOf e with
  | unvisited => exact absurd hvisit he
  | inProgress => exact absurd hvisit (ht e)
  | done => rfl

theorem Explores.done_of_visited (h : Explores src validating s nodes t)
    (he : t.visitOf e ≠ .unvisited) : t.visitOf e = .done :=
  Scan.done_of_visited h.between he

theorem Explores.orderly (h : Explores src validating s nodes t) (hs : s.Fresh) :
    Orderly src.log t :=
  (h.course.orderly (.of_fresh src.log hs.linked hs.edges)).congr rfl rfl

theorem Explores.examined (h : Explores src validating s nodes t) (hs : s.Fresh) :
    Examined src.files t :=
  (h.course.examined (.of_fresh src.log hs.linked hs.edges)
    (.of_fresh src.files hs.edges hs.nodes)).congr rfl rfl

theorem Explores.grows (h : Explores src validating s nodes t) (hs : s.Fresh) :
    s.graph.Grows t.graph :=
  h.course.grows hs.linked

theorem Explores.path_eq (h : Explores src validating s nodes t) (hs : s.Fresh)
    (hlt : n < s.graph.nodes.size) : (t.graph.node n).path = (s.graph.node n).path :=
  (h.grows hs).path n hlt

/-- Scanning one more file that is wanted keeps to what is wanted. -/
theorem Explores.target (h : Explores src validating s nodes t) (hs : s.Fresh)
    (hlt : n < s.graph.nodes.size) (hn : Wanted src.files s validating nodes (s.graph.node n).path)
    (hscan : target src n t = .ok () u) :
    Explores src validating s nodes u ∧ Onward none t u ∧ u.Known n ∧
      u.outstanding = t.outstanding := by
  have ht := (h.orderly hs).linked
  have hlt' : n < t.graph.nodes.size := Nat.lt_of_lt_of_le hlt (h.grows hs).nodes_size
  obtain ⟨hcourse, honward, hknown⟩ := target_learns ht hlt' hscan
  have hcovers := target_covers ht hlt' hscan
  have hall : Course src s (s.adopt u) := h.course.adopt_trans hcourse
  have hpath : (u.graph.node n).path = (s.graph.node n).path :=
    (honward.graph.path n hlt').trans (h.path_eq hs hlt)
  rw [← hpath] at hn
  refine ⟨⟨hall, honward.between h.between, fun e he => ?_, fun m hm hstat => ?_⟩, honward, hknown,
    hcovers.outstanding⟩
  · cases hbefore : t.visitOf e with
    | unvisited =>
      obtain ⟨m, hm, hprod⟩ := hcovers.edge e hbefore (by rw [he]; simp)
      exact hall.wants_of_producer hs.linked (hall.wanted_of_madeFrom hs.linked hn hm) hprod
    | inProgress => exact absurd hbefore (h.between e)
    | done => exact h.edge e hbefore
  · rw [honward.graph.producer] at hm
    by_cases hbefore : (t.survey.node m).isStatted
    · have hsame := honward.graph.path m (((h.examined hs).leaf m hm hbefore).within)
      exact hsame ▸ h.leaf m hm hbefore
    · exact hall.wanted_of_madeFrom hs.linked hn (hcovers.leaf m hm hbefore hstat)

/-- What stops the scan of a file that is wanted is in the way. -/
theorem Explores.blocked (h : Explores src validating s nodes t) (hs : s.Fresh)
    (hlt : n < s.graph.nodes.size) (hn : Wanted src.files s validating nodes (s.graph.node n).path)
    {err : Error} (hscan : Scan.target src n t = .error err u) :
    Blocked src s validating nodes := by
  have ht := (h.orderly hs).linked
  rcases target_stops ht h.between hscan with hlook | ⟨hcourse, stack, node, id, hmeets⟩
  · obtain @⟨v, m, k, fault, hcourse, hreached, hbeside, hfails⟩ := hlook
    have hall : Course src s (s.adopt v) := h.course.adopt_trans hcourse
    have hgrows : s.graph.Grows v.graph := hall.grows hs.linked
    rw [← hgrows.path n hlt] at hn
    have hm := hall.wanted_of_madeFrom hs.linked hn hreached
    refine .inl ⟨_, fault, ?_, hfails⟩
    rcases hbeside with rfl | ⟨e, hme, hke⟩
    · exact hm
    · have hlinked : v.graph.Linked := hall.linked hs.linked
      obtain ⟨out, hout, hwanted⟩ :=
        hall.wants_of_producer hs.linked hm ((hlinked.producer_iff m e).mpr hme)
      rw [hgrows.outs] at hke
      rw [hgrows.path k (Graph.lt_of_producer ((hs.linked.producer_iff k e).mpr hke))]
      exact .beside hout hwanted hke
  · obtain ⟨e, ⟨first, hfirst, hneeds⟩, hcircle⟩ := hmeets.hasCycle ht hcourse
    have hsame : Needs src.files t = Needs src.files s :=
      funext₂ fun e d => propext (h.course.needs_iff hs.linked e d)
    rw [hsame] at hneeds hcircle
    rw [← h.path_eq hs hlt] at hn
    exact .inr ⟨e, (h.course.wants_of_producer hs.linked hn hfirst).needs hs.linked hneeds, hcircle⟩

end Explores

/-! ## Scans that come to all that is wanted -/

/-- A scan is done with the file of a path. -/
def Knows (s : Scan) (path : String) : Prop :=
  ∃ n, s.graph.findNode? path = some n ∧ s.Known n

/-- A scan has come to all that its targets want, and to nothing else. -/
structure Completes (src : Sources) (validating : Bool) (s : Scan) (nodes : List NodeId)
    (t : Scan) : Prop extends Explores src validating s nodes t where
  complete : ∀ path, Wanted src.files s validating nodes path → t.Knows path

namespace Completes

variable {n : NodeId}

/-- It is enough to know the targets, and the validations that count, for what they want is known
with them. -/
theorem of_known (h : Explores src validating s nodes t) (hs : s.Fresh)
    (hlt : ∀ n ∈ nodes, n < s.graph.nodes.size) (hnodes : ∀ n ∈ nodes, t.Known n)
    (hvalidations : validating → ∀ e, t.visitOf e = .done →
      ∀ v ∈ (s.graph.edge e).validations, t.Known v) : Completes src validating s nodes t := by
  have hgrows := h.grows hs
  have ht := h.orderly hs
  have hfind : ∀ {n : NodeId}, n < s.graph.nodes.size →
      t.graph.findNode? (s.graph.node n).path = some n := fun {n} hlt =>
    ht.linked.findNode?_eq_some_iff.mpr
      ⟨Nat.lt_of_lt_of_le hlt hgrows.nodes_size, hgrows.path n hlt⟩
  -- an edge that makes a known file is done
  have hdone : ∀ {e : EdgeId} {out : NodeId}, out ∈ (s.graph.edge e).outs →
      t.Knows (s.graph.node out).path → t.visitOf e = .done := by
    rintro e out hout ⟨m, hm, hknown⟩
    have hprod := (hs.linked.producer_iff out e).mpr hout
    obtain rfl := Option.some.inj ((hfind (Graph.lt_of_producer hprod)).symm.trans hm)
    exact (known_of_producer ((hgrows.producer out).trans hprod)).mp hknown
  refine ⟨h, fun path hwanted => ?_⟩
  induction hwanted with
  | target hn => exact ⟨_, hfind (hlt _ hn), hnodes _ hn⟩
  | @input e out path hout _ huses ih =>
    have he := hdone hout ih
    obtain ⟨m, hm, rfl⟩ := Graph.mem_paths.mp ((h.course.mem_paths_ins_iff hs.linked (hs.edges e)
      (by rw [show (s.adopt t).visitOf e = .done from he]; simp) path).mpr huses)
    exact ⟨m, ht.linked.findNode?_eq_some_iff.mpr ⟨ht.linked.lt_of_in hm, rfl⟩,
      (ht.closed e he).known m hm⟩
  | @beside e m out hm _ hout ih =>
    have hprod := (hs.linked.producer_iff out e).mpr hout
    exact ⟨out, hfind (Graph.lt_of_producer hprod),
      (known_of_producer ((hgrows.producer out).trans hprod)).mpr (hdone hm ih)⟩
  | @validation e out v hval hout _ hv ih =>
    exact ⟨v, hfind (hs.linked.lt_of_validation hv), hvalidations hval e (hdone hout ih) v hv⟩

theorem known_of_wanted (h : Completes src validating s nodes t) (hs : s.Fresh)
    (hlt : n < s.graph.nodes.size)
    (hn : Wanted src.files s validating nodes (s.graph.node n).path) :
    t.Known n := by
  obtain ⟨m, hm, hknown⟩ := h.complete _ hn
  have hgrows := h.grows hs
  have hfind := (h.orderly hs).linked.findNode?_eq_some_iff.mpr
    ⟨Nat.lt_of_lt_of_le hlt hgrows.nodes_size, hgrows.path n hlt⟩
  exact Option.some.inj (hfind.symm.trans hm) ▸ hknown

/-- The nodes that were there before and that a scan knows are those that are wanted. -/
theorem known_iff (h : Completes src validating s nodes t) (hs : s.Fresh)
    (hlt : n < s.graph.nodes.size) :
    t.Known n ↔ Wanted src.files s validating nodes (s.graph.node n).path := by
  refine ⟨fun hknown => ?_, h.known_of_wanted hs hlt⟩
  cases hprod : (t.graph.node n).producer with
  | none =>
    rw [← h.path_eq hs hlt]
    exact h.leaf n hprod ((known_of_leaf hprod).mp hknown)
  | some e =>
    obtain ⟨out, hout, hwanted⟩ := h.edge e ((known_of_producer hprod).mp hknown)
    rw [(h.grows hs).producer] at hprod
    exact .beside hout hwanted ((hs.linked.producer_iff n e).mp hprod)

/-- The edges that a scan is done with are those that make what is wanted. -/
theorem done_iff (h : Completes src validating s nodes t) (hs : s.Fresh) (e : EdgeId) :
    t.visitOf e = .done ↔ Wants src.files s validating nodes e := by
  refine ⟨h.edge e, fun ⟨out, hout, hwanted⟩ => ?_⟩
  have hprod := (hs.linked.producer_iff out e).mpr hout
  exact (known_of_producer (((h.grows hs).producer out).trans hprod)).mp
    (h.known_of_wanted hs (Graph.lt_of_producer hprod) hwanted)

/-- Nothing is in the way of a scan that came to all that is wanted. -/
theorem not_blocked (h : Completes src validating s nodes t) (hs : s.Fresh) :
    ¬Blocked src s validating nodes := by
  have ht := h.orderly hs
  rintro (⟨path, fault, hwanted, hfault⟩ | ⟨e, hwants, hcircle⟩)
  · obtain ⟨n, hn, hknown⟩ := h.complete path hwanted
    obtain ⟨-, rfl⟩ := Graph.findNode?_eq_some hn
    have hx := h.examined hs
    have hlooked : ∃ mtime, src.files.stat (t.graph.node n).path = .ok mtime := by
      cases hp : (t.graph.node n).producer with
      | none => exact ⟨_, (hx.leafRules hp hknown).time⟩
      | some e =>
        obtain ⟨mtime, hfile, -⟩ :=
          hx.out n e hp (by rw [(known_of_producer hp).mp hknown]; simp)
        exact ⟨mtime, hfile.1⟩
    obtain ⟨mtime, hok⟩ := hlooked
    rw [hok] at hfault
    cases hfault
  · exact h.course.not_needs_self (ht.congr rfl rfl) hs.linked hs.edges
      ((h.done_iff hs e).mpr hwants) hcircle

end Completes

/-- The scan of one target comes to all that the target wants, or something is in its way. -/
theorem target_completes (src : Sources) (hs : s.Fresh) {n : NodeId}
    (hlt : n < s.graph.nodes.size) :
    match target src n s with
    | .ok _ t => Completes src false s [n] t
    | .error _ _ => Blocked src s false [n] := by
  have hn : Wanted src.files s false [n] (s.graph.node n).path :=
    .target (List.mem_singleton_self n)
  have hstart : Explores src false s [n] s := .refl src hs [n]
  cases hscan : target src n s with
  | error err t => exact hstart.blocked hs hlt hn hscan
  | ok _ t =>
    obtain ⟨hexplores, -, hknown, -⟩ := hstart.target hs hlt hn hscan
    refine .of_known hexplores hs ?_ ?_ (by simp)
    · simpa using hlt
    · simpa using hknown

/-! ## Targets with their validations -/

theorem popValidation_eq_none (h : popValidation s = .ok none t) : t = s ∧ s.validations = [] := by
  unfold popValidation at h
  split at h
  · next hlast =>
    cases h
    exact ⟨rfl, List.getLast?_eq_none_iff.mp hlast⟩
  · cases h

theorem popValidation_eq_some {v : NodeId} (h : popValidation s = .ok (some v) t) :
    t.graph = s.graph ∧ t.survey = s.survey ∧ s.validations = t.validations ++ [v] := by
  unfold popValidation at h
  split at h
  · cases h
  · next hlast =>
    cases h
    exact ⟨rfl, rfl, (List.dropLast_append_getLast? v hlast).symm⟩

theorem popValidation_total (s : Scan) : ∃ v t, popValidation s = .ok v t := by
  unfold popValidation
  split <;> exact ⟨_, _, rfl⟩

/-- Validations are over when none is left. -/
theorem validate_none {n : Nat} {found : List NodeId} (h : popValidation s = .ok none t) :
    validate src nodes (n + 1) found s = .ok found t := by
  rw [validate, Sequence.bind_of_ok _ h]
  rfl

/-- A validation whose turn has come is scanned, unless it is known. -/
theorem validate_some {n : Nat} {found : List NodeId} {v : NodeId}
    (h : popValidation s = .ok (some v) t) : validate src nodes (n + 1) found s =
      if v ∈ nodes ++ found then validate src nodes n found t
      else (target src v >>= fun _ => validate src nodes n (found ++ [v])) t := by
  have hseen : (found.contains v || nodes.contains v) = true ↔ v ∈ nodes ++ found := by
    simp [or_comm]
  rw [validate, Sequence.bind_of_ok _ h]
  dsimp only
  by_cases hold : v ∈ nodes ++ found
  · rw [if_pos (hseen.mpr hold), if_pos hold]
  · rw [if_neg (mt hseen.mp hold), if_neg hold]

/-- One validation less is outstanding when the turn of one has come. -/
theorem card_outstanding_pop {v : NodeId} (h : popValidation s = .ok (some v) t) :
    s.outstanding.card = t.outstanding.card + 1 := by
  obtain ⟨hgraph, hsurvey, hvalidations⟩ := popValidation_eq_some h
  have hgrows : t.graph.Grows s.graph := hgraph ▸ .refl _
  rw [outstanding_add hgrows (fun e => by rw [visitOf, visitOf, hsurvey]) hvalidations,
    Multiset.card_add, Multiset.coe_card, List.length_singleton]

/-- A validation is due: it is one of an edge that a scan is done with. -/
def Due (s t : Scan) (v : NodeId) : Prop :=
  ∃ e, t.visitOf e = .done ∧ v ∈ (s.graph.edge e).validations

/-- Validations that a scan still has to take and those whose turn has come are those that are due;
none was lost, unless it is a target. -/
structure Awaits (s : Scan) (nodes found : List NodeId) (t : Scan) : Prop where
  due : ∀ v ∈ t.validations ++ found, s.Due t v
  met : ∀ v, s.Due t v → v ∈ t.validations ∨ v ∈ nodes ++ found
  apart : ∀ v ∈ found, v ∉ nodes
  once : found.Nodup

namespace Awaits

variable {n v : NodeId} {found : List NodeId}

theorem refl (hedges : ∀ e, s.visitOf e = .unvisited) (hnone : s.validations = [])
    (nodes : List NodeId) : Awaits s nodes [] s where
  due v hv := by rw [hnone] at hv; cases hv
  met := by
    rintro v ⟨e, he, -⟩
    rw [hedges] at he
    cases he
  apart := by simp
  once := List.nodup_nil

theorem lt_of_mem (h : Awaits s nodes found t) (hs : s.graph.Linked) (hv : v ∈ t.validations) :
    v < s.graph.nodes.size := by
  obtain ⟨e, -, hmem⟩ := h.due v (List.mem_append_left _ hv)
  exact hs.lt_of_validation hmem

/-- The validations of the edges that are come to when a target is scanned are due then. -/
theorem target (h : Awaits s nodes found t) (hgrows : s.graph.Grows t.graph)
    (honward : Onward none t u) (hsame : u.outstanding = t.outstanding)
    (ht : ∀ e, t.visitOf e ≠ .inProgress) (hu : ∀ e, u.visitOf e ≠ .inProgress) :
    Awaits s nodes found u := by
  have hmem := mem_validations_iff honward.graph
    (fun e he => by rw [honward.visitOf_eq (by simp) he]; exact he) hsame
  simp only [hgrows.validations] at hmem
  have hkeeps : ∀ {v}, s.Due t v → s.Due u v := fun ⟨e, he, hvals⟩ =>
    ⟨e, honward.visitOf_done (by simp) he, hvals⟩
  refine ⟨fun v hv => ?_, ?_, h.apart, h.once⟩
  · rcases List.mem_append.mp hv with hv | hv
    · rcases (hmem v).mp hv with hold | ⟨e, -, hnew, hvals⟩
      · exact hkeeps (h.due v (List.mem_append_left _ hold))
      · exact ⟨e, done_of_visited hu hnew, hvals⟩
    · exact hkeeps (h.due v (List.mem_append_right _ hv))
  · rintro v ⟨e, he, hvals⟩
    by_cases hbefore : t.visitOf e = .unvisited
    · exact .inl ((hmem v).mpr (.inr ⟨e, hbefore, by rw [he]; simp, hvals⟩))
    · exact (h.met v ⟨e, done_of_visited ht hbefore, hvals⟩).imp_left fun hold =>
        (hmem v).mpr (.inl hold)

/-- The turn of a validation has come. It counts as found, unless it is known. -/
theorem pop (h : Awaits s nodes found t) (hpop : popValidation t = .ok (some v) u)
    {found' : List NodeId} (hsub : found ⊆ found') (hnew : found' ⊆ found ++ [v])
    (hmem : v ∈ nodes ++ found') (hapart : ∀ w ∈ found', w ∉ nodes) (honce : found'.Nodup) :
    Awaits s nodes found' u := by
  obtain ⟨-, hsurvey, hv⟩ := popValidation_eq_some hpop
  have hdue : ∀ w, s.Due u w ↔ s.Due t w := fun w => by
    simp only [Due, visitOf, hsurvey]
  refine ⟨fun w hw => ?_, fun w hw => ?_, hapart, honce⟩
  · refine (hdue w).mpr (h.due w ?_)
    rcases List.mem_append.mp hw with hw | hw
    · rw [hv]
      exact List.mem_append_left _ (List.mem_append_left _ hw)
    rcases List.mem_append.mp (hnew hw) with hw | hw
    · exact List.mem_append_right _ hw
    · rw [hv]
      exact List.mem_append_left _ (List.mem_append_right _ hw)
  · rcases h.met w ((hdue w).mp hw) with hold | hold
    · rw [hv] at hold
      refine (List.mem_append.mp hold).imp_right fun hlast => ?_
      rwa [List.mem_singleton.mp hlast]
    · exact .inr (List.mem_append.mpr ((List.mem_append.mp hold).imp_right (hsub ·)))

theorem skip (h : Awaits s nodes found t) (hpop : popValidation t = .ok (some v) u)
    (hv : v ∈ nodes ++ found) : Awaits s nodes found u :=
  h.pop hpop (List.Subset.refl _) (List.subset_append_left _ _) hv h.apart h.once

theorem take (h : Awaits s nodes found t) (hpop : popValidation t = .ok (some v) u)
    (hv : v ∉ nodes ++ found) : Awaits s nodes (found ++ [v]) u := by
  rw [List.mem_append, not_or] at hv
  refine h.pop hpop (List.subset_append_left _ _) (List.Subset.refl _) (by simp) (fun w hw => ?_)
    (List.nodup_append_comm.mp (List.nodup_cons.mpr ⟨hv.2, h.once⟩))
  rcases List.mem_append.mp hw with hw | hw
  · exact h.apart w hw
  · exact List.mem_singleton.mp hw ▸ hv.1

end Awaits

/-- A scan keeps to what is wanted, and awaits the validations that are due. -/
structure Gathers (src : Sources) (s : Scan) (nodes found : List NodeId) (t : Scan) : Prop
    extends Explores src true s nodes t, Awaits s nodes found t

namespace Gathers

variable {n v : NodeId} {found : List NodeId}

theorem refl (src : Sources) (hs : s.Fresh) (nodes : List NodeId) :
    Gathers src s nodes [] s where
  toExplores := .refl src hs nodes
  toAwaits := .refl hs.edges hs.validations nodes

/-- Validations that are due are wanted. -/
theorem wanted (h : Gathers src s nodes found t) (hv : v ∈ t.validations) :
    Wanted src.files s true nodes (s.graph.node v).path := by
  obtain ⟨e, he, hmem⟩ := h.due v (List.mem_append_left _ hv)
  obtain ⟨out, hout, hwanted⟩ := h.edge e he
  exact .validation rfl hout hwanted hmem

theorem target (h : Gathers src s nodes found t) (hs : s.Fresh) (hlt : n < s.graph.nodes.size)
    (hn : Wanted src.files s true nodes (s.graph.node n).path)
    (hscan : target src n t = .ok () u) : Gathers src s nodes found u ∧ Onward none t u ∧
      u.Known n ∧ u.outstanding = t.outstanding := by
  obtain ⟨hexplores, honward, hknown, hsame⟩ := h.toExplores.target hs hlt hn hscan
  exact ⟨⟨hexplores, h.toAwaits.target (h.grows hs) honward hsame h.between hexplores.between⟩,
    honward, hknown, hsame⟩

theorem skip (h : Gathers src s nodes found t) (hpop : popValidation t = .ok (some v) u)
    (hv : v ∈ nodes ++ found) : Gathers src s nodes found u :=
  have ⟨hgraph, hsurvey, _⟩ := popValidation_eq_some hpop
  ⟨h.toExplores.congr hgraph hsurvey, h.toAwaits.skip hpop hv⟩

theorem take (h : Gathers src s nodes found t) (hpop : popValidation t = .ok (some v) u)
    (hv : v ∉ nodes ++ found) : Gathers src s nodes (found ++ [v]) u :=
  have ⟨hgraph, hsurvey, _⟩ := popValidation_eq_some hpop
  ⟨h.toExplores.congr hgraph hsurvey, h.toAwaits.take hpop hv⟩

end Gathers

section All

variable {found : List NodeId}

theorem targets_gathers (hs : s.Fresh) (h : Gathers src s nodes found t) {more : List NodeId}
    (hmore : ∀ n ∈ more, n ∈ nodes ∧ n < s.graph.nodes.size) :
    match targets src more t with
    | .ok _ u => Gathers src s nodes found u ∧ Onward none t u ∧ ∀ n ∈ more, u.Known n
    | .error _ _ => Blocked src s true nodes := by
  induction more generalizing t with
  | nil => exact ⟨h, .refl none t, by simp⟩
  | cons n more ih =>
    obtain ⟨hmem, hlt⟩ := hmore n List.mem_cons_self
    rw [targets]
    cases hfirst : target src n t with
    | error err u =>
      rw [Sequence.bind_of_error _ hfirst]
      exact h.blocked hs hlt (.target hmem) hfirst
    | ok _ u =>
      obtain ⟨hu, honward, hknown, -⟩ := h.target hs hlt (.target hmem) hfirst
      have hrest := ih hu fun m hm => hmore m (List.mem_cons_of_mem n hm)
      rw [Sequence.bind_of_ok _ hfirst]
      cases hscan : targets src more u with
      | error err v => rwa [hscan] at hrest
      | ok _ v =>
        rw [hscan] at hrest
        obtain ⟨hv, hlater, hall⟩ := hrest
        refine ⟨hv, honward.trans hlater, fun m hm => ?_⟩
        rcases List.mem_cons.mp hm with rfl | hm
        · exact hlater.known_none hknown
        · exact hall m hm

/-- As many steps as validations are outstanding are enough to scan them all. -/
theorem validate_gathers (hs : s.Fresh) {n : Nat} (h : Gathers src s nodes found t)
    (hknown : ∀ v ∈ nodes ++ found, t.Known v) (hsteps : t.outstanding.card < n) :
    match validate src nodes n found t with
    | .ok found' u => Gathers src s nodes found' u ∧ u.validations = [] ∧
      ∀ v ∈ nodes ++ found', u.Known v
    | .error _ _ => Blocked src s true nodes := by
  induction n generalizing found t with
  | zero => exact absurd hsteps (Nat.not_lt_zero _)
  | succ n ih =>
    obtain ⟨node, u, hpop⟩ := t.popValidation_total
    cases node with
    | none =>
      obtain ⟨rfl, hnone⟩ := popValidation_eq_none hpop
      rw [validate_none hpop]
      exact ⟨h, hnone, hknown⟩
    | some v =>
      obtain ⟨hgraph, hsurvey, hvalidations⟩ := popValidation_eq_some hpop
      have hmem : v ∈ t.validations := by rw [hvalidations]; simp
      have honward : Onward none t u := .of_same none hgraph hsurvey
      have hfewer : u.outstanding.card < n := by
        rw [card_outstanding_pop hpop] at hsteps
        exact Nat.lt_of_succ_lt_succ hsteps
      rw [validate_some hpop]
      by_cases hold : v ∈ nodes ++ found
      · rw [if_pos hold]
        exact ih (h.skip hpop hold) (fun w hw => honward.known_none (hknown w hw)) hfewer
      · rw [if_neg hold]
        have hu := h.take hpop hold
        have hlt := h.lt_of_mem hs.linked hmem
        cases hscan : target src v u with
        | error err w =>
          rw [Sequence.bind_of_error _ hscan]
          exact hu.blocked hs hlt (h.wanted hmem) hscan
        | ok _ w =>
          rw [Sequence.bind_of_ok _ hscan]
          obtain ⟨hw, hlater, hv, hsame⟩ := hu.target hs hlt (h.wanted hmem) hscan
          refine ih hw (fun m hm => ?_) (hsame ▸ hfewer)
          rw [← List.append_assoc] at hm
          rcases List.mem_append.mp hm with hm | hm
          · exact hlater.known_none (honward.known_none (hknown m hm))
          · exact List.mem_singleton.mp hm ▸ hv

theorem validationCount_eq_sum (g : Graph) :
    validationCount g = ∑ e ∈ Finset.range g.edges.size, (g.edge e).validations.length := by
  have hedges : g.edges.toList = (List.range g.edges.size).map g.edge :=
    List.ext_getElem (by simp) fun e _ he => by
      have hlt : e < g.edges.size := by simpa using he
      simp [Graph.edge, Array.getD_eq_getD_getElem?, hlt]
  rw [validationCount, ← List.sum_eq_foldl, hedges, List.map_map]
  rfl

/-- No more validations are outstanding than were met and than there are. -/
theorem card_outstanding_le (s : Scan) :
    s.outstanding.card ≤ s.validations.length + validationCount s.graph := by
  have hsub : s.unvisitedEdges ⊆ Finset.range s.graph.edges.size := Finset.filter_subset _ _
  rw [outstanding, Multiset.card_add, Multiset.coe_card, validationCount_eq_sum,
    Multiset.card_sum]
  exact Nat.add_le_add_left (Finset.sum_le_sum_of_subset hsub) _

/-- A scan of targets with all their validations comes to all that they want, and tells the
validations that are no targets themselves; or something is in its way. -/
theorem all_completes (src : Sources) (hs : s.Fresh)
    (hlt : ∀ n ∈ nodes, n < s.graph.nodes.size) :
    match all src nodes s with
    | .ok found t => Completes src true s nodes t ∧ (∀ v ∈ nodes ++ found, t.Known v) ∧
      ∀ v, v ∈ found ↔ v ∉ nodes ∧ ∃ e, Wants src.files s true nodes e ∧
        v ∈ (s.graph.edge e).validations
    | .error _ _ => Blocked src s true nodes := by
  have htargets := targets_gathers hs (Gathers.refl src hs nodes) fun n hn => ⟨hn, hlt n hn⟩
  rw [all]
  cases hfirst : targets src nodes s with
  | error err t =>
    rw [Sequence.bind_of_error _ hfirst]
    rwa [hfirst] at htargets
  | ok _ t =>
    rw [Sequence.bind_of_ok _ hfirst, Sequence.get_bind]
    rw [hfirst] at htargets
    obtain ⟨ht, -, hknown⟩ := htargets
    have hrest := validate_gathers hs ht (by rwa [List.append_nil])
      (Nat.lt_succ_of_le t.card_outstanding_le)
    cases hscan : validate src nodes (t.validations.length + validationCount t.graph + 1) [] t with
    | error err u => rwa [hscan] at hrest
    | ok found u =>
      rw [hscan] at hrest
      obtain ⟨hu, hnone, hall⟩ := hrest
      -- no validation is left to be scanned
      have hmet : ∀ v, s.Due u v → v ∈ nodes ++ found := fun v hv =>
        (hu.met v hv).resolve_left (by rw [hnone]; simp)
      have hcomplete : Completes src true s nodes u :=
        .of_known hu.toExplores hs hlt (fun n hn => hall n (List.mem_append_left _ hn))
          fun _ e he v hv => hall v (hmet v ⟨e, he, hv⟩)
      refine ⟨hcomplete, hall, fun v => ⟨fun hv => ⟨hu.apart v hv, ?_⟩, ?_⟩⟩
      · obtain ⟨e, he, hvals⟩ := hu.due v (List.mem_append_right _ hv)
        exact ⟨e, hu.edge e he, hvals⟩
      · rintro ⟨hnew, e, hwants, hvals⟩
        have hdone := (hcomplete.done_iff hs e).mpr hwants
        exact (List.mem_append.mp (hmet v ⟨e, hdone, hvals⟩)).resolve_left hnew

end All

end Rebuild.Scan
