import Rebuild.Manifest.Load
import Rebuild.Proofs.Manifest.Clauses

/-!
# Statements in step

Statements that are the same but for the places at which they stand do the same to a graph, as long
as they are carried out; places only matter for faults.
-/

namespace Rebuild.Manifest

open Lexer (left On)
open Sequence (Keeps bind_congr)

/-- How many characters are left to be read. -/
def Loader.left (s : Loader) : Nat := s.lexer.left

/-- The same graph, and lexers that are related. -/
def Alike (P : Lexer → Lexer → Prop) (s s' : Loader) : Prop :=
  s.graph = s'.graph ∧ P s.lexer s'.lexer

variable {α σ : Type} {R : List Char → List Char → Prop} {P P' : Lexer → Lexer → Prop} {n : Nat}
  {file file' : SourceFile} {path path' : String} {scope : ScopeId}

/-! ## Steps -/

theorem echoes_reading {read read' : Reading α} {V : α → α → Prop} {Q : α → Lexer → Lexer → Prop}
    (h : Echoes left P read read' V Q) :
    Echoes Loader.left (Alike P) (reading file read) (reading file' read') V
      fun a => Alike (Q a) := by
  intro s s' hs a t hread
  unfold reading at hread
  split at hread
  · next l hl =>
    cases hread
    obtain ⟨hle, a', l', hl', hV, hQ⟩ := h hs.2 hl
    exact ⟨hle, a', { s' with lexer := l' }, by rw [reading, hl'], hV, hs.1, hQ⟩
  · cases hread

theorem echoes_inspect (f : Graph → α) :
    Echoes Loader.left (Alike P) (inspect f) (inspect f) Eq fun _ => Alike P := by
  rintro s s' hs _ _ ⟨⟩
  exact ⟨Nat.le_refl _, f s'.graph, s', rfl, congrArg f hs.1, hs⟩

theorem echoes_change (f : Graph → Graph) :
    Echoes Loader.left (Alike P) (change f) (change f) Eq fun _ => Alike P := by
  rintro s s' hs _ _ ⟨⟩
  exact ⟨Nat.le_refl _, (), { s' with graph := f s'.graph }, rfl, rfl, congrArg f hs.1, hs.2⟩

theorem echoes_changeGet (f : Graph → α × Graph) :
    Echoes Loader.left (Alike P) (changeGet f) (changeGet f) Eq fun _ => Alike P := by
  rintro s s' hs _ _ ⟨⟩
  exact ⟨Nat.le_refl _, (f s'.graph).1, { s' with graph := (f s'.graph).2 }, rfl,
    congrArg (fun g => (f g).1) hs.1, congrArg (fun g => (f g).2) hs.1, hs.2⟩

theorem echoes_faultAt {place : Location} {fault : SyntaxFault} {second : Load α}
    {V : α → α → Prop} {Q : α → Loader → Loader → Prop} :
    Echoes Loader.left (Alike P) (faultAt file place fault) second V Q := nofun

theorem echoes_faultAt_bind {place : Location} {fault : SyntaxFault} {next : α → Load σ}
    {second : Load σ} {V : σ → σ → Prop} {Q : σ → Loader → Loader → Prop} :
    Echoes Loader.left (Alike P) (faultAt file place fault >>= next) second V Q := nofun

theorem echoes_newScope (parent : ScopeId) :
    Echoes Loader.left (Alike P) (newScope parent) (newScope parent) Eq fun _ => Alike P :=
  echoes_changeGet _

/-- What only works on the graph does the same for both. -/
theorem echoes_graph (work : EStateM Error Graph Unit) :
    Echoes Loader.left (Alike P)
      (fun s => match work s.graph with
        | .ok _ graph => .ok () { s with graph := graph }
        | .error e graph => .error e { s with graph := graph } : Load Unit)
      (fun s => match work s.graph with
        | .ok _ graph => .ok () { s with graph := graph }
        | .error e graph => .error e { s with graph := graph } : Load Unit) Eq
      fun _ => Alike P := by
  intro s s' hs _ t hrun
  dsimp only at hrun ⊢
  rw [← hs.1]
  split at hrun
  · cases hrun
    exact ⟨Nat.le_refl _, (), _, rfl, rfl, rfl, hs.2⟩
  · cases hrun

/-- Only the templates of paths are looked at to find their nodes. -/
theorem echoes_resolvePaths {paths paths' : List WrittenPath}
    (h : SameWritten paths paths') : Echoes Loader.left (Alike P) (resolvePaths file scope paths)
      (resolvePaths file' scope paths') Eq fun _ => Alike P := by
  induction paths generalizing paths' with
  | nil =>
    obtain rfl := List.map_eq_nil_iff.mp h.symm
    exact .pure rfl fun _ _ => id
  | cons written paths ih =>
    obtain ⟨written', rest', rfl, hwritten, hrest⟩ := List.map_eq_cons_iff.mp h.symm
    rw [resolvePaths, resolvePaths, hwritten]
    refine (echoes_inspect _).bind fun path _ hpath => ?_
    subst hpath
    refine .ite Iff.rfl echoes_faultAt_bind ?_
    refine (echoes_changeGet _).bind fun node _ hnode => ?_
    subst hnode
    refine (ih hrest.symm).bind fun nodes _ hnodes => ?_
    subst hnodes
    exact .pure rfl fun _ _ => id

theorem reading_of_ok {read : Reading α} {s : Loader} {a : α} {l : Lexer}
    (h : read s.lexer = .ok a l) : reading file read s = .ok a { s with lexer := l } := by
  rw [reading, h]

theorem reading_eq_ok {read : Reading α} {s t : Loader} {a : α}
    (h : reading file read s = .ok a t) : read s.lexer = .ok a t.lexer ∧ t.graph = s.graph := by
  unfold reading at h
  split at h
  · next l hl => cases h; exact ⟨hl, rfl⟩
  · cases h

/-! ## Blocks -/

/-- Work on the graph, which reads nothing. -/
abbrev KeepsLexer (work : Load α) : Prop := Keeps (fun s t => t.lexer = s.lexer) work

theorem keepsLexer_check {β : Type} {c : Prop} [Decidable c] {place : Location}
    {fault : SyntaxFault} {next : β → Load α} {work : Load α} (h : KeepsLexer work) :
    KeepsLexer (if c then faultAt file place fault >>= next else work) := by
  split
  · exact fun _ => rfl
  · exact h

/-- A bound on the number of bindings that is larger than what is left is never met. -/
theorem blockUpTo_of_le {step : σ → Location → String → Template → Load σ}
    (hstep : ∀ acc place name value, KeepsLexer (step acc place name value)) {m : Nat} {s : Loader}
    (hn : s.left < n) (hm : n ≤ m) (acc : σ) :
    blockUpTo file step m acc s = blockUpTo file step n acc s := by
  induction n generalizing m acc s with
  | zero => exact absurd hn (Nat.not_lt_zero _)
  | succ n ih =>
    obtain ⟨m, rfl⟩ : ∃ k, m = k + 1 := ⟨m - 1, by omega⟩
    rw [blockUpTo, blockUpTo]
    refine bind_congr fun token s₁ hpeek => ?_
    cases token with
    | none => rfl
    | some token =>
      refine bind_congr fun place s₂ hplace => bind_congr fun (name, value) s₃ hbinding =>
        bind_congr fun acc s₄ hacc => ih ?_ (by omega) acc
      calc s₄.left = s₃.left := congrArg left ((hstep _ place name value).ok hacc)
        _ < s₂.left := left_binding_lt (reading_eq_ok hbinding).1
        _ = s₁.left := congrArg left (EStateM.Result.ok.inj (reading_eq_ok hplace).1).2.symm
        _ ≤ s.left := Lexer.left_peek_le (reading_eq_ok hpeek).1
        _ ≤ n := Nat.le_of_lt_succ hn

theorem echoes_reading_binding (n : Nat) : Echoes Loader.left
    (fun s s' => Alike (On fun c d => Cursor.SharesLine true R c.inLine d.inLine) s s' ∧
      s.left < n + 1) (reading file binding) (reading file' binding) Eq
      fun _ s s' => Alike (On (Cursor.EndsLine R)) s s' ∧ s.left < n :=
  (echoes_reading echoes_binding).lower (fun _ _ _ h => left_binding_lt (reading_eq_ok h).1) n

theorem echoes_blockUpTo (hR : Steady R) {step step' : σ → Location → String → Template → Load σ}
    (hstep : ∀ acc place place' name value, Echoes Loader.left (Alike (On (Cursor.EndsLine R)))
      (step acc place name value) (step' acc place' name value) Eq
        fun _ => Alike (On (Cursor.EndsLine R))) {m : Nat} (hm : n ≤ m) (acc : σ) :
    Echoes Loader.left (fun s s' => Alike (On (Cursor.EndsLine R)) s s' ∧ s.left < n)
      (blockUpTo file step n acc) (blockUpTo file' step' m acc) Eq
        fun _ => Alike (On (Cursor.EndsLine R)) := by
  induction n generalizing m acc with
  | zero => exact fun _ _ h => absurd h.2 (Nat.not_lt_zero _)
  | succ n ih =>
    obtain ⟨m, rfl⟩ : ∃ k, m = k + 1 := ⟨m - 1, by omega⟩
    refine ((echoes_reading hR).within _).bind fun token token' htoken => ?_
    cases token with
    | none =>
      obtain rfl := Option.isNone_iff_eq_none.mp (by simpa using htoken.symm)
      exact .pure rfl fun _ _ h => h.1
    | some token =>
      obtain ⟨token', rfl⟩ := Option.isSome_iff_exists.mp htoken.symm
      refine ((echoes_reading Lexer.echoes_location).within _).bind fun place place' _ => ?_
      refine ((echoes_reading_binding n).before fun _ _ h =>
        ⟨⟨h.1.1, rfl, rfl, h.1.2.rest⟩, h.2⟩).bind fun result _ hresult => ?_
      subst hresult
      obtain ⟨name, value⟩ := result
      refine ((hstep acc place place' name value).within n).bind fun acc _ hacc => ?_
      subst hacc
      exact ih (by omega) acc

theorem echoes_block (hR : Steady R) {step step' : σ → Location → String → Template → Load σ}
    (hstep : ∀ acc place place' name value, Echoes Loader.left (Alike (On (Cursor.EndsLine R)))
      (step acc place name value) (step' acc place' name value) Eq
        fun _ => Alike (On (Cursor.EndsLine R)))
    (hstep' : ∀ acc place name value, KeepsLexer (step' acc place name value)) (acc : σ) :
    Echoes Loader.left (Alike (On (Cursor.EndsLine R))) (block file acc step)
      (block file' acc step') Eq fun _ => Alike (On (Cursor.EndsLine R)) := by
  intro s s' hs a t hrun
  have hblock : block file' acc step' s' =
      blockUpTo file' step' (max (s.left + 1) (s'.left + 1)) acc s' :=
    (blockUpTo_of_le hstep' (Nat.lt_succ_self _) (Nat.le_max_right ..) acc).symm
  rw [hblock]
  exact echoes_blockUpTo hR hstep (Nat.le_max_left ..) acc ⟨hs, Nat.lt_succ_self _⟩ hrun

/-! ## Statements -/

/-- A statement that leaves both lexers between lines if they began after its keyword, in a line
with or without escapes. -/
abbrev InStep (escapes : Bool) (R : List Char → List Char → Prop)
    (statement statement' : Load Unit) : Prop :=
  Echoes Loader.left (Alike (On (Cursor.SharesLine escapes R))) statement statement' Eq
    fun _ => Alike (On (Cursor.EndsLine R))

theorem inStep_ruleStatement (hR : Steady R) :
    InStep false R (ruleStatement ⟨path, scope⟩) (ruleStatement ⟨path', scope⟩) := by
  refine (echoes_reading echoes_nameLine).bind fun result result' hname => ?_
  obtain ⟨place, name⟩ := result
  obtain ⟨place', name'⟩ := result'
  cases hname
  refine (echoes_inspect _).bind fun taken _ htaken => ?_
  subst htaken
  refine .ite Iff.rfl echoes_faultAt_bind ?_
  refine (echoes_block hR (fun vars _ _ var value => ?_) (fun _ _ _ _ => ?_) ∅).bind
    fun vars _ hvars => ?_
  · exact .ite Iff.rfl echoes_faultAt_bind (.pure rfl fun _ _ => id)
  · exact keepsLexer_check fun _ => rfl
  subst hvars
  refine .ite Iff.rfl echoes_faultAt_bind ?_
  refine (echoes_changeGet _).bind fun rule _ hrule => ?_
  subst hrule
  exact echoes_change _

theorem inStep_poolStatement (hR : Steady R) :
    InStep false R (poolStatement ⟨path, scope⟩) (poolStatement ⟨path', scope⟩) := by
  refine (echoes_reading echoes_nameLine).bind fun result result' hname => ?_
  obtain ⟨place, name⟩ := result
  obtain ⟨place', name'⟩ := result'
  cases hname
  refine (echoes_inspect _).bind fun found _ hfound => ?_
  subst hfound
  refine .ite Iff.rfl echoes_faultAt_bind ?_
  refine (echoes_block hR (fun _ _ _ var value => ?_) (fun _ _ _ value => ?_) none).bind
    fun depth _ hdepth => ?_
  · refine .ite Iff.rfl echoes_faultAt_bind ?_
    refine (echoes_inspect _).bind fun text _ htext => ?_
    subst htext
    split
    · exact .pure rfl fun _ _ => id
    · exact echoes_faultAt
  · refine keepsLexer_check (.bind (fun _ _ _ h h' => h'.trans h) (fun _ => rfl) fun text => ?_)
    split
    · exact fun _ => rfl
    · exact fun _ => rfl
  subst hdepth
  cases depth with
  | none => exact echoes_faultAt
  | some depth => exact echoes_change _

theorem echoes_recipeOf {line line' : BuildLine} (h : SameBuildLine line line') :
    Echoes Loader.left (Alike P) (recipeOf ⟨path, scope⟩ line) (recipeOf ⟨path', scope⟩ line') Eq
      fun _ => Alike P := by
  unfold recipeOf
  rw [← h.ruleName]
  refine .ite Iff.rfl (.pure rfl fun _ _ => id) ?_
  refine (echoes_inspect _).bind fun found _ hfound => ?_
  subst hfound
  split
  · exact .pure rfl fun _ _ => id
  · exact echoes_faultAt

theorem inStep_buildStatement (hR : Steady R) (place place' : Location) :
    InStep true R (buildStatement ⟨path, scope⟩ place)
      (buildStatement ⟨path', scope⟩ place') := by
  refine (echoes_reading echoes_buildLine).bind fun line line' hline => ?_
  refine (echoes_recipeOf hline).bind fun recipe _ hrecipe => ?_
  subst hrecipe
  refine (echoes_newScope _).bind fun scope _ hscope => ?_
  subst hscope
  refine (echoes_block hR (fun _ _ _ name value => ?_) (fun _ _ _ _ => ?_) ()).bind
    fun _ _ _ => ?_
  · exact echoes_change _
  · exact fun _ => rfl
  refine (echoes_resolvePaths hline.explicitOuts).bind fun explicitOuts _ hexplicitOuts => ?_
  refine (echoes_resolvePaths hline.implicitOuts).bind fun implicitOuts _ himplicitOuts => ?_
  refine (echoes_resolvePaths hline.explicitIns).bind fun explicitIns _ hexplicitIns => ?_
  refine (echoes_resolvePaths hline.implicitIns).bind fun implicitIns _ himplicitIns => ?_
  refine (echoes_resolvePaths hline.orderOnlyIns).bind fun orderOnlyIns _ horderOnlyIns => ?_
  refine (echoes_resolvePaths hline.validations).bind fun validations _ hvalidations => ?_
  subst hexplicitOuts himplicitOuts hexplicitIns himplicitIns horderOnlyIns hvalidations
  refine (echoes_inspect _).bind fun ins _ hins => ?_
  refine (echoes_inspect _).bind fun outs _ houts => ?_
  subst hins houts
  refine (echoes_change _).bind fun _ _ _ => ?_
  refine (echoes_inspect _).bind fun added _ hadded => ?_
  subst hadded
  split
  · exact (echoes_inspect _).bind fun _ _ _ => echoes_faultAt
  refine (echoes_change _).bind fun _ _ _ => ?_
  refine (echoes_inspect _).bind fun poolName _ hpoolName => ?_
  subst hpoolName
  refine .ite Iff.rfl ?_ (.pure rfl fun _ _ => id)
  refine (echoes_inspect _).bind fun pool _ hpool => ?_
  subst hpool
  split
  · exact echoes_faultAt
  · exact echoes_change _

theorem inStep_defaultStatement :
    InStep true R (defaultStatement ⟨path, scope⟩) (defaultStatement ⟨path', scope⟩) := by
  refine (echoes_reading echoes_targetLine).bind fun targets targets' htargets => ?_
  refine (echoes_resolvePaths htargets).bind fun nodes _ hnodes => ?_
  subst hnodes
  exact echoes_change _

theorem inStep_includeStatement (nested : Nested) (ownScope : Bool) :
    InStep true R (includeStatement nested ⟨path, scope⟩ ownScope)
      (includeStatement nested ⟨path', scope⟩ ownScope) := by
  refine (echoes_reading echoes_pathLine).bind fun written written' hwritten => ?_
  rw [hwritten]
  refine (echoes_inspect _).bind fun path _ hpath => ?_
  subst hpath
  refine .ite Iff.rfl echoes_faultAt_bind (.ite Iff.rfl ?_ ?_)
  · refine (echoes_newScope _).bind fun scope _ hscope => ?_
    subst hscope
    exact echoes_graph _
  · exact echoes_graph _

end Rebuild.Manifest
